import MoodengSQL.Execution.RowStep

/-!
# Where version conflicts come from

Expressions, coercions, checks and indexes fail in many ways, but never with a
version conflict. A statement that ends with one was refused by `storage.update`.
-/

namespace MoodengSQL

open Foundation Foundation.Effect

/-- Whether a failure is a version conflict. -/
def Failure.isConflict : Failure → Bool
  | .error (.versionConflict _ _) => true
  | _ => false

/-- The computation does not fail with a version conflict. -/
def Unconflicted {α : Type} (result : Except Failure α) : Prop :=
  ∀ e, result = .error e → e.isConflict = false

namespace Unconflicted

variable {α β : Type}

theorem ok (a : α) : Unconflicted (.ok a : Except Failure α) := nofun

theorem error {e : Failure} (other : e.isConflict = false) :
    Unconflicted (.error e : Except Failure α) := by
  intro e' same
  cases same
  exact other

theorem bind {m : Except Failure α} {f : α → Except Failure β} (first : Unconflicted m)
    (next : ∀ a, Unconflicted (f a)) : Unconflicted (m >>= f) := by
  cases m with
  | ok a => exact next a
  | error e => exact .error (first e rfl)

theorem ite {condition : Prop} [Decidable condition] {left right : Except Failure α}
    (first : Unconflicted left) (second : Unconflicted right) :
    Unconflicted (if condition then left else right) := by
  split
  · exact first
  · exact second

end Unconflicted

section Evaluation

variable [Runtime]

theorem unconflicted_i32Result (n : Int) : Unconflicted (i32Result n) :=
  .ite (.error rfl) (.ok _)

theorem unconflicted_i64Result (n : Int) : Unconflicted (i64Result n) :=
  .ite (.error rfl) (.ok _)

theorem unconflicted_evalBinary (left : Value) (op : BinaryOperator) (right : Value) :
    Unconflicted (evalBinary left op right) := by
  refine .ite (.ok _) (.ite (.ok _) ?_)
  split
  all_goals first
    | exact .ok _
    | exact unconflicted_i32Result _
    | exact unconflicted_i64Result _

omit [Runtime] in
theorem unconflicted_columnValue (column : String) (row : List Value) (columns : List String) :
    Unconflicted (columnValue column row columns) := by
  dsimp only [columnValue]
  split
  · exact .ok _
  · exact .error rfl

omit [Runtime] in
theorem unconflicted_excludedValue (column : String) (excluded : Option (List Value))
    (columns : List String) : Unconflicted (excludedValue column excluded columns) := by
  cases excluded with
  | none => exact .error rfl
  | some row => exact unconflicted_columnValue _ _ _

theorem unconflicted_evalExprWithExcluded (row : List Value) (columns : List String)
    (excluded : Option (List Value)) (expr : Expr) :
    Unconflicted (evalExprWithExcluded row columns excluded expr) := by
  induction expr with
  | value v => exact .ok _
  | identifier name => exact unconflicted_columnValue _ _ _
  | compoundIdentifier parts =>
      exact .ite (unconflicted_excludedValue _ _ _) (unconflicted_columnValue _ _ _)
  | binaryOp left op right leftIh rightIh =>
      exact leftIh.bind fun l => rightIh.bind fun r => unconflicted_evalBinary l op r
  | unaryOp op expr ih =>
      refine ih.bind fun v => ?_
      cases op with
      | not => cases v <;> exact .ok _
      | minus =>
          dsimp only
          split
          · exact unconflicted_i32Result _
          · exact unconflicted_i64Result _
          · exact .ok _
          · exact .ok _
      | other => exact .ok _
  | isNull expr ih => exact ih.bind fun v => .ok _
  | isNotNull expr ih => exact ih.bind fun v => .ok _
  | nested expr ih => exact ih
  | function name first ih =>
      refine .ite (.ok _) (.ite (ih.bind fun v => ?_) (.ite (ih.bind fun v => ?_) (.ok _)))
      all_goals cases v <;> exact .ok _
  | functionArgs name args => exact .ite (.ok _) (.ok _)
  | other => exact .ok _

theorem unconflicted_selects (whereClause : Option Expr) (row : Row) (colNames : List String) :
    Unconflicted (selects whereClause row colNames) := by
  cases whereClause with
  | none => exact .ok _
  | some condition =>
      refine (unconflicted_evalExprWithExcluded _ _ _ _).bind fun v => ?_
      cases v <;> exact .ok _

theorem unconflicted_coerceTo (value : Value) (target : DataType) :
    Unconflicted (value.coerceTo target) := by
  refine .ite (.ok _) ?_
  split
  all_goals first
    | exact .ok _
    | exact .ite (.ok _) (.error rfl)

theorem unconflicted_assignAll (schema : TableSchema) (excluded : Option (List Value))
    (assignments : List Assignment) (values : List Value) :
    Unconflicted (assignAll schema excluded assignments values) := by
  induction assignments generalizing values with
  | nil => exact .ok _
  | cons assign rest ih =>
      have value : Unconflicted
          (assignmentValueWithExcluded assign values schema.colNames excluded) :=
        (unconflicted_evalExprWithExcluded _ _ _ _).bind fun v => .ok _
      refine value.bind fun (column, value) => ?_
      dsimp only
      split
      · exact ih values
      · split
        · exact (unconflicted_coerceTo _ _).bind fun coerced => .ite (ih _) (.error rfl)
        · exact .error rfl

omit [Runtime] in
theorem unconflicted_validateRow (schema : TableSchema) (values : List Value) :
    Unconflicted (validateRow schema values) := by
  unfold validateRow
  split
  · exact .error rfl
  · exact .ok _

end Evaluation

section Indexes

/-- An index refuses a key with `DuplicateKey`. -/
theorem unconflicted_insert (index : BTreeIndex) (values : List Value) (rowId : Nat) :
    Unconflicted (index.insert values rowId) := by
  dsimp only [BTreeIndex.insert]
  split
  · exact .ite (.error rfl) (.ok _)
  · exact .ok _

theorem unconflicted_insertEach (values : List Value) (columnNames : List String) (rowId : Nat)
    (names : List String) (indexes : TableIndexes) :
    Unconflicted (IndexManager.insertEach values columnNames rowId names indexes).1 := by
  induction names generalizing indexes with
  | nil => exact .ok _
  | cons name rest ih =>
      unfold IndexManager.insertEach
      split
      · exact ih indexes
      · split
        · rename_i refused
          exact .error (unconflicted_insert _ _ _ _ refused)
        · exact ih _

theorem unconflicted_insertRow [Runtime] (manager : IndexManager) (table : String)
    (values : List Value) (columnNames : List String) (rowId : Nat) :
    Unconflicted (manager.insertRow table values columnNames rowId).1 := by
  unfold IndexManager.insertRow
  split
  · exact .ok _
  · exact unconflicted_insertEach _ _ _ _ _

end Indexes

section Rows

variable [Runtime] {s s' : Executor} {table : String} {schema : TableSchema}
  {assignments : List Assignment} {txnId rowId : Nat} {row : Row} {e : Failure}

/-- The body of `UPDATE` ends with a version conflict only when `storage.update`
refuses the row; the keys of the scanned image are out of the indexes by then. -/
theorem rewriteRow_conflict
    (ran : rewriteRow table schema assignments none txnId rowId row s = .error e s')
    (conflict : e.isConflict = true) :
    (∃ existing, s.storage.view (table, rowId) = some existing ∧
        existing.version ≠ row.version) ∧
      s' = { s with
        session := s.session.recordUndo (.update table rowId row)
        indexes := s.indexes.removeRow table row.values schema.colNames rowId } := by
  simp only [rewriteRow, recordUndo, ExecM.removeIndexRow, ExecM.insertIndexRow, bind_eq_error,
    modify_eq_ok, modify_eq_error, false_or, ExecM.lift_eq_error, ExecM.lift_eq_ok,
    ExecM.liftStorage_eq_error, ExecM.liftIndexes_eq_error] at ran
  obtain ⟨_, _, rfl, _, _, rfl, ⟨failed, -⟩ | ⟨values, _, ⟨-, rfl⟩, rest⟩⟩ := ran
  · rw [unconflicted_assignAll _ _ _ _ _ failed] at conflict
    cases conflict
  · obtain ⟨failed, -⟩ | ⟨_, _, ⟨-, rfl⟩, ⟨refused, rfl⟩ | ⟨_, _, -, _, failed, -⟩⟩ := rest
    · rw [unconflicted_validateRow _ _ _ failed] at conflict
      cases conflict
    · refine ⟨?_, rfl⟩
      rcases StorageEngine.update_refused refused with ⟨-, rfl⟩ | ⟨existing, found, differs, -⟩
      · cases conflict
      · exact ⟨existing, found, differs⟩
    · have duplicate := unconflicted_insertRow _ _ _ _ _ _ (congrArg Prod.fst failed)
      rw [duplicate] at conflict
      cases conflict

/-- The body of `UPDATE` ends well when the row has been replaced, or when it is
gone and nothing is stored; its new keys go into the indexes in either case. -/
theorem rewriteRow_outcome {u : Unit}
    (ran : rewriteRow table schema assignments none txnId rowId row s = .ok u s') :
    s'.catalog = s.catalog ∧ ∃ values,
      (s.indexes.removeRow table row.values schema.colNames rowId).insertRow table values
        schema.colNames rowId = (.ok (), s'.indexes) ∧
      ((s.storage.view (table, rowId) = none ∧ s'.storage = s.storage) ∨
        ∃ existing, s.storage.view (table, rowId) = some existing ∧
          existing.version = row.version ∧
          s'.storage.view = Function.update s.storage.view (table, rowId)
            (some { values, version := row.version + 1 })) := by
  simp only [rewriteRow, recordUndo, ExecM.insertIndexRow, ExecM.removeIndexRow, bind_eq_ok,
    ExecM.lift_eq_ok, ExecM.liftStorage_eq_ok, ExecM.liftIndexes_eq_ok, modify_eq_ok] at ran
  obtain ⟨_, _, rfl, _, _, rfl, values, _, ⟨-, rfl⟩, _, _, ⟨-, rfl⟩, changed, _,
    ⟨storage, updated, rfl⟩, indexes, indexed, rfl⟩ := ran
  refine ⟨rfl, values, indexed, ?_⟩
  rcases StorageEngine.update_outcome updated with ⟨-, missing, same⟩ |
    ⟨-, existing, tables, found, version, rfl, -, view⟩
  · exact .inl ⟨missing, same⟩
  · exact .inr ⟨existing, found, version, (StorageEngine.view_log _ _ _).trans view⟩

/-- The body of `DELETE` never ends with a version conflict. -/
theorem removeRow_unconflicted (ran : removeRow table schema txnId rowId row s = .error e s') :
    e.isConflict = false := by
  simp only [removeRow, recordUndo, ExecM.removeIndexRow, bind_eq_error, modify_eq_ok,
    modify_eq_error, false_or, ExecM.liftStorage_eq_error, pure_eq_error, and_false, exists_false,
    or_false] at ran
  obtain ⟨_, _, -, _, _, -, refused, -⟩ := ran
  unfold StorageEngine.delete at refused
  split at refused
  · cases refused
    rfl
  · cases refused

end Rows

end MoodengSQL
