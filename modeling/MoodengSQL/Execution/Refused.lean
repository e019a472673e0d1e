import MoodengSQL.Execution.Failure

/-!
# Rows that are refused

A row loop fails at the first row that is refused: for its values, for a
condition that cannot be evaluated, for a conflict that cannot be resolved, or
for a key that a unique index has already. Whether a row is refused can be told
from the state the loop finds when it comes to the row.
-/

namespace MoodengSQL

open Foundation Foundation.Effect Std

section Rules

variable {α : Type} {s : Executor}

theorem fails_liftStorage {op : StorageEngine → Except Failure (α × StorageEngine)} :
    Fails (ExecM.liftStorage op) s ↔ ∃ e, op s.storage = .error e := by
  unfold Fails
  simp only [ExecM.liftStorage_eq_error]
  exact ⟨fun ⟨e, _, failed, _⟩ => ⟨e, failed⟩, fun ⟨e, failed⟩ => ⟨e, s, failed, rfl⟩⟩

theorem fails_liftIndexes {op : IndexManager → Except Failure α × IndexManager} :
    Fails (ExecM.liftIndexes op) s ↔ ∃ e, (op s.indexes).1 = .error e := by
  unfold Fails
  simp only [ExecM.liftIndexes_eq_error]
  constructor
  · rintro ⟨e, _, indexes, failed, -⟩
    exact ⟨e, by rw [failed]⟩
  · rintro ⟨e, failed⟩
    exact ⟨e, _, _, Prod.ext failed rfl, rfl⟩

end Rules

section Rows

variable [Runtime] (s : Executor) (table : String) (schema : TableSchema) (txnId : Nat)

/-- The keys of a row are refused by an index. -/
def KeysRefused (manager : IndexManager) (table : String) (schema : TableSchema) (rowId : Nat)
    (values : List Value) : Prop :=
  ∃ e, (manager.insertRow table values schema.colNames rowId).1 = .error e

/-- A new row is refused: its keys are. -/
def StoreRefused (rowValues : List Value) : Prop :=
  KeysRefused s.indexes table schema (s.storage.insert table (Row.new rowValues) txnId).1 rowValues

/-- A row to rewrite is refused: its new values are, or storage has it under
another version, or an index has its new key already. -/
def ReplaceRefused (assignments : List Assignment) (excluded : Option (List Value)) (rowId : Nat)
    (row : Row) : Prop :=
  match rewrittenValues schema assignments excluded row with
  | .error _ => True
  | .ok values => match s.storage.update table rowId { row with values } txnId row.version with
    | .error _ => True
    | .ok _ => KeysRefused (s.indexes.removeRow table row.values schema.colNames rowId) table schema
        rowId values

/-- A row of an `INSERT` is refused. -/
def InsertedRowRefused (onConflict : Option OnConflict) (values : List Value) : Prop :=
  match acceptedValues schema values with
  | .error _ => True
  | .ok rowValues => match onConflict with
    | none => StoreRefused s table schema txnId rowValues
    | some conflict => match findConflictRow s.indexes schema table conflict rowValues with
      | .error _ => True
      | .ok none => StoreRefused s table schema txnId rowValues
      | .ok (some rowId) => match conflict.action with
        | .doNothing => False
        | .doUpdate update => match s.storage.view (table, rowId) with
          | none => True
          | some existing => match conflictApplies schema rowValues update existing with
            | .error _ => True
            | .ok false => False
            | .ok true => ReplaceRefused s table schema txnId update.assignments (some rowValues)
                rowId existing

/-- A row an `UPDATE` comes to is refused. -/
def UpdatedRowRefused (assignments : List Assignment) (whereClause : Option Expr)
    (entry : Nat × Row) : Prop :=
  match selects whereClause entry.2 schema.colNames with
  | .error _ => True
  | .ok false => False
  | .ok true => ReplaceRefused s table schema txnId assignments none entry.1 entry.2

/-- A row a `DELETE` comes to is refused. -/
def DeletedRowRefused (whereClause : Option Expr) (entry : Nat × Row) : Prop :=
  match selects whereClause entry.2 schema.colNames with
  | .error _ => True
  | .ok false => False
  | .ok true => table ∉ s.storage.tables

variable {s table schema txnId}

theorem fails_storeRow {rowValues : List Value} :
    Fails (storeRow table schema txnId rowValues) s ↔
      StoreRefused s table schema txnId rowValues := by
  unfold storeRow
  rw [fails_bind_of_ok (ExecM.liftStorage_eq_ok.mpr ⟨_, rfl, rfl⟩), fails_bind, ExecM.insertIndexRow,
    fails_liftIndexes]
  refine or_iff_left ?_
  rintro ⟨_, _, -, failed⟩
  exact not_fails_modify _ _ failed

theorem fails_rewriteRow {assignments : List Assignment} {excluded : Option (List Value)}
    {rowId : Nat} {row : Row} :
    Fails (rewriteRow table schema assignments excluded txnId rowId row) s ↔
      ReplaceRefused s table schema txnId assignments excluded rowId row := by
  unfold rewriteRow recordUndo ExecM.removeIndexRow
  rw [fails_modify_bind, fails_modify_bind]
  cases assigned : assignAll schema excluded assignments row.values with
  | error e =>
      have rewritten : rewrittenValues schema assignments excluded row = .error e := by
        simp [rewrittenValues, assigned, bind, Except.bind]
      rw [ReplaceRefused, rewritten]
      exact iff_of_true (fails_bind_of_error (ExecM.lift_eq_error.mpr ⟨rfl, rfl⟩)) trivial
  | ok values =>
      rw [fails_bind_of_ok (ExecM.lift_eq_ok.mpr ⟨rfl, rfl⟩)]
      cases valid : validateRow schema values with
      | error e =>
          have rewritten : rewrittenValues schema assignments excluded row = .error e := by
            simp [rewrittenValues, assigned, valid, bind, Except.bind]
          rw [ReplaceRefused, rewritten]
          exact iff_of_true (fails_bind_of_error (ExecM.lift_eq_error.mpr ⟨rfl, rfl⟩)) trivial
      | ok u =>
          have rewritten : rewrittenValues schema assignments excluded row = .ok values := by
            simp [rewrittenValues, assigned, valid, bind, Except.bind, pure, Except.pure]
          rw [fails_bind_of_ok (ExecM.lift_eq_ok.mpr ⟨rfl, rfl⟩), ReplaceRefused, rewritten]
          dsimp only
          cases updated : s.storage.update table rowId { row with values } txnId row.version with
          | error e =>
              exact iff_of_true (fails_bind_of_error (ExecM.liftStorage_eq_error.mpr ⟨updated, rfl⟩))
                trivial
          | ok result =>
              obtain ⟨changed, storage⟩ := result
              rw [fails_bind_of_ok (ExecM.liftStorage_eq_ok.mpr ⟨storage, updated, rfl⟩)]
              exact fails_liftIndexes

theorem fails_removeRow {rowId : Nat} {row : Row} :
    Fails (removeRow table schema txnId rowId row) s ↔ table ∉ s.storage.tables := by
  unfold removeRow recordUndo ExecM.removeIndexRow
  rw [fails_modify_bind, fails_modify_bind, fails_bind, fails_liftStorage, or_iff_left]
  · rw [StorageEngine.delete]
    cases found : s.storage.tables[table]? with
    | none =>
        exact iff_of_true ⟨_, rfl⟩ fun member => by
          rw [ExtTreeMap.mem_iff_isSome_getElem?, found] at member
          cases member
    | some data =>
        refine iff_of_false (fun ⟨e, failed⟩ => nomatch failed) (not_not_intro ?_)
        rw [ExtTreeMap.mem_iff_isSome_getElem?, found]
        rfl
  · rintro ⟨_, _, -, failed⟩
    exact not_fails_pure _ _ failed

theorem fails_applyConflictUpdate {rowId : Nat} {proposed : List Value} {update : DoUpdate} :
    Fails (applyConflictUpdate table schema rowId proposed update txnId) s ↔
      match s.storage.view (table, rowId) with
      | none => True
      | some existing => match conflictApplies schema proposed update existing with
        | .error _ => True
        | .ok false => False
        | .ok true => ReplaceRefused s table schema txnId update.assignments (some proposed) rowId
            existing := by
  have applied := applyConflictUpdate_cases s table schema rowId proposed update txnId
  unfold Fails
  cases present : s.storage.view (table, rowId) with
  | none =>
      simp only [present] at applied
      obtain ⟨e, failed⟩ := applied
      exact iff_of_true ⟨e, s, failed⟩ trivial
  | some existing =>
      simp only [present] at applied ⊢
      cases applies : conflictApplies schema proposed update existing with
      | error e =>
          simp only [applies] at applied ⊢
          exact iff_of_true ⟨e, s, applied⟩ trivial
      | ok decision =>
          simp only [applies] at applied ⊢
          rw [applied]
          cases decision with
          | false => exact iff_of_false (fun ⟨_, _, failed⟩ => nomatch failed) id
          | true => exact fails_rewriteRow

omit [Runtime] in
/-- A computation that does not fail lets what follows it go on from a later state. -/
theorem goes_on {ρ α β : Type} {m : ExecM α} {f : ρ → ExecM β} (accepted : ¬Fails m s) :
    ∃ mid, ∀ r, (m >>= fun _ => f r) s = f r mid := by
  obtain ⟨a, mid, ran⟩ := not_fails.mp accepted
  exact ⟨mid, fun r => bind_of_ok ran⟩

/-- One row of the loop of `INSERT`. -/
theorem insertRows_row {onConflict : Option OnConflict} (values : List Value) (count : Nat) :
    (InsertedRowRefused s table schema txnId onConflict values →
      ∀ rest, Fails (insertRows table schema onConflict txnId (values :: rest) count) s) ∧
    (¬InsertedRowRefused s table schema txnId onConflict values → ∃ count' mid, ∀ rest,
      insertRows table schema onConflict txnId (values :: rest) count s =
        insertRows table schema onConflict txnId rest count' mid) := by
  have store : ∀ rowValues,
      (StoreRefused s table schema txnId rowValues → ∀ rest,
        Fails (storeRow table schema txnId rowValues >>= fun _ =>
          insertRows table schema onConflict txnId rest (count + 1)) s) ∧
      (¬StoreRefused s table schema txnId rowValues → ∃ count' mid, ∀ rest,
        (storeRow table schema txnId rowValues >>= fun _ =>
          insertRows table schema onConflict txnId rest (count + 1)) s =
          insertRows table schema onConflict txnId rest count' mid) := by
    intro rowValues
    rw [← fails_storeRow]
    refine ⟨fun failed rest => fails_bind.mpr (.inl failed), fun accepted => ⟨count + 1, ?_⟩⟩
    exact goes_on accepted
  simp only [insertRows, InsertedRowRefused]
  cases coerced : coerceRow schema values with
  | error e =>
      rw [acceptedValues_error (.inl coerced)]
      exact ⟨fun _ rest => fails_bind_of_error (ExecM.lift_eq_error.mpr ⟨rfl, rfl⟩),
        fun accepted => absurd trivial accepted⟩
  | ok rowValues =>
      simp only [fails_bind_of_ok (ExecM.lift_eq_ok.mpr ⟨rfl, rfl⟩),
        bind_of_ok (ExecM.lift_eq_ok.mpr ⟨rfl, rfl⟩)]
      cases valid : validateRow schema rowValues with
      | error e =>
          rw [acceptedValues_error (.inr ⟨rowValues, coerced, valid⟩)]
          exact ⟨fun _ rest => fails_bind_of_error (ExecM.lift_eq_error.mpr ⟨rfl, rfl⟩),
            fun accepted => absurd trivial accepted⟩
      | ok u =>
          rw [acceptedValues_ok coerced valid]
          simp only [fails_bind_of_ok (ExecM.lift_eq_ok.mpr ⟨rfl, rfl⟩),
            bind_of_ok (ExecM.lift_eq_ok.mpr ⟨rfl, rfl⟩)]
          cases onConflict with
          | none => exact store rowValues
          | some conflict =>
              simp only [fails_bind_of_ok (get_eq_ok.mpr ⟨rfl, rfl⟩),
                bind_of_ok (get_eq_ok.mpr ⟨rfl, rfl⟩)]
              cases conflicts : findConflictRow s.indexes schema table conflict rowValues with
              | error e =>
                  exact ⟨fun _ rest => fails_bind_of_error (ExecM.lift_eq_error.mpr ⟨rfl, rfl⟩),
                    fun accepted => absurd trivial accepted⟩
              | ok existing =>
                  simp only [fails_bind_of_ok (ExecM.lift_eq_ok.mpr ⟨rfl, rfl⟩),
                    bind_of_ok (ExecM.lift_eq_ok.mpr ⟨rfl, rfl⟩)]
                  cases existing with
                  | none => exact store rowValues
                  | some rowId =>
                      dsimp only
                      cases conflict.action with
                      | doNothing => exact ⟨fun refused => False.elim refused, fun _ => ⟨count, s, fun _ => rfl⟩⟩
                      | doUpdate update =>
                          dsimp only
                          rw [← fails_applyConflictUpdate]
                          exact ⟨fun failed rest => fails_bind.mpr (.inl failed),
                            fun accepted => ⟨count + 1, goes_on accepted⟩⟩

/-- **The row loop of `INSERT` fails exactly when it comes to a row that is refused.** -/
theorem fails_insertRows {onConflict : Option OnConflict} (rows : List (List Value)) (count : Nat) :
    Fails (insertRows table schema onConflict txnId rows count) s ↔
      ComesToRefused (insertRows table schema onConflict txnId)
        (fun s values => InsertedRowRefused s table schema txnId onConflict values) rows count s :=
  fails_loop (fun _ _ => rfl)
    (fun values rest count _ refused => (insertRows_row values count).1 refused rest)
    (fun values count _ accepted => (insertRows_row values count).2 accepted) rows count s

/-- A loop over rows that works on those a `WHERE` clause selects. -/
theorem fails_selectedRows {loop : List (Nat × Row) → Nat → ExecM Nat}
    {work : Nat × Row → ExecM Unit} {refused : Executor → Nat × Row → Prop}
    {whereClause : Option Expr} {colNames : List String}
    (done : ∀ count s, loop [] count s = .ok count s)
    (next : ∀ entry rest count, loop (entry :: rest) count = do
      if ← ExecM.lift (selects whereClause entry.2 colNames) then
        work entry
        loop rest (count + 1)
      else loop rest count)
    (works : ∀ s entry, Fails (work entry) s ↔ refused s entry)
    (rows : List (Nat × Row)) (count : Nat) :
    Fails (loop rows count) s ↔ ComesToRefused loop (fun s entry =>
      match selects whereClause entry.2 colNames with
      | .error _ => True
      | .ok false => False
      | .ok true => refused s entry) rows count s := by
  refine fails_loop done ?_ ?_ rows count s
  · intro entry rest count s stops
    rw [next]
    cases selected : selects whereClause entry.2 colNames with
    | error e => exact fails_bind_of_error (ExecM.lift_eq_error.mpr ⟨rfl, rfl⟩)
    | ok decision =>
        rw [selected] at stops
        rw [fails_bind_of_ok (ExecM.lift_eq_ok.mpr ⟨rfl, rfl⟩)]
        cases decision with
        | false => cases stops
        | true => exact fails_bind.mpr (.inl ((works s entry).mpr stops))
  · intro entry count s accepted
    simp only [next]
    cases selected : selects whereClause entry.2 colNames with
    | error e =>
        rw [selected] at accepted
        exact absurd trivial accepted
    | ok decision =>
        rw [selected] at accepted
        simp only [bind_of_ok (ExecM.lift_eq_ok.mpr ⟨rfl, rfl⟩)]
        cases decision with
        | false => exact ⟨count, s, fun _ => rfl⟩
        | true => exact ⟨count + 1, goes_on fun failed => accepted ((works s entry).mp failed)⟩

/-- **The row loop of `UPDATE` fails exactly when it comes to a row that is refused.** -/
theorem fails_updateRows {assignments : List Assignment} {whereClause : Option Expr}
    (rows : List (Nat × Row)) (count : Nat) :
    Fails (updateRows table schema assignments whereClause txnId rows count) s ↔
      ComesToRefused (updateRows table schema assignments whereClause txnId)
        (fun s entry => UpdatedRowRefused s table schema txnId assignments whereClause entry)
        rows count s :=
  fails_selectedRows (fun _ _ => rfl) (fun _ _ _ => rfl) (fun _ _ => fails_rewriteRow) rows count

/-- **The row loop of `DELETE` fails exactly when it comes to a row that is refused.** -/
theorem fails_deleteRows {whereClause : Option Expr} (rows : List (Nat × Row)) (count : Nat) :
    Fails (deleteRows table schema whereClause txnId rows count) s ↔
      ComesToRefused (deleteRows table schema whereClause txnId)
        (fun s entry => DeletedRowRefused s table schema whereClause entry) rows count s :=
  fails_selectedRows (fun _ _ => rfl) (fun _ _ _ => rfl) (fun _ _ => fails_removeRow) rows count

end Rows

end MoodengSQL
