import MoodengSQL.Execution.Moves
import MoodengSQL.Execution.Runs

/-!
# Statements that fail

A statement writes row by row and does not take its writes back when it fails.
A row that was stored or rewritten has a higher version than before, one that
was deleted is gone, and nothing later in the statement reverts either. A failed
statement therefore leaves rows and indexes as they were exactly when it fails
before its first write.
-/

namespace MoodengSQL

open Foundation Foundation.Effect Relation Std

/-- The rows every scan returns and the contents of every index are the same. -/
structure Unchanged (s s' : Executor) : Prop where
  rows : ∀ table, s'.storage.scan table = s.storage.scan table
  indexes : ∀ table name, s'.indexes.index? table name = s.indexes.index? table name

section Ranks

/-- How far a row is: not stored, or stored under a version. -/
def rank : Option Row → Nat
  | none => 0
  | some row => row.version + 1

/-- No row went back. -/
def Rises (s s' : Executor) : Prop :=
  ∀ key, rank (s.storage.view key) ≤ rank (s'.storage.view key)

/-- Some row went ahead. -/
def Grew (s s' : Executor) : Prop :=
  ∃ key, rank (s.storage.view key) < rank (s'.storage.view key)

/-- No row went ahead. -/
def Falls (s s' : Executor) : Prop := Rises s' s

instance : IsPreorder Executor Rises where
  refl _ _ := Nat.le_refl _
  trans _ _ _ first second key := (first key).trans (second key)

instance : IsPreorder Executor Falls where
  refl _ _ := Nat.le_refl _
  trans _ _ _ first second key := (second key).trans (first key)

variable {s mid s' : Executor}

theorem Grew.rises (grew : Grew s mid) (rises : Rises mid s') : Grew s s' := by
  obtain ⟨key, less⟩ := grew
  exact ⟨key, less.trans_le (rises key)⟩

theorem Grew.falls (grew : Grew mid s) (falls : Falls mid s') : Grew s' s := by
  obtain ⟨key, less⟩ := grew
  exact ⟨key, (falls key).trans_lt less⟩

theorem Unchanged.view (unchanged : Unchanged s s') : s'.storage.view = s.storage.view := by
  funext key
  obtain ⟨table, rowId⟩ := key
  refine Option.ext fun row => ?_
  rw [← StorageEngine.mem_scan, ← StorageEngine.mem_scan, unchanged.rows table]

theorem Grew.not_unchanged (grew : Grew s s') : ¬ Unchanged s s' := by
  intro unchanged
  obtain ⟨key, less⟩ := grew
  rw [unchanged.view] at less
  exact Nat.lt_irrefl _ less

theorem Grew.not_unchanged_of_shrunk (shrunk : Grew s' s) : ¬ Unchanged s s' := by
  intro unchanged
  obtain ⟨key, less⟩ := shrunk
  rw [unchanged.view] at less
  exact Nat.lt_irrefl _ less

theorem unchanged_refl (s : Executor) : Unchanged s s := ⟨fun _ => rfl, fun _ _ => rfl⟩

/-- A state with the same tables shows a change exactly in its indexes. -/
theorem unchanged_of_tables (tables : s'.storage.tables = s.storage.tables) :
    Unchanged s s' ↔
      ∀ table name, s'.indexes.index? table name = s.indexes.index? table name := by
  refine ⟨Unchanged.indexes, fun same => ⟨fun table => ?_, same⟩⟩
  unfold StorageEngine.scan
  rw [tables]

theorem rises_of_update {key : RowKey} {row : Option Row}
    (view : s'.storage.view = Function.update s.storage.view key row)
    (higher : rank (s.storage.view key) ≤ rank row) : Rises s s' := by
  intro other
  rw [view, Function.update_apply]
  split
  · rename_i here
    rw [here]
    exact higher
  · exact Nat.le_refl _

theorem grew_of_update {key : RowKey} {row : Option Row}
    (view : s'.storage.view = Function.update s.storage.view key row)
    (higher : rank (s.storage.view key) < rank row) : Grew s s' :=
  ⟨key, by rwa [view, Function.update_self]⟩

end Ranks

section Storage

variable [Runtime] {s : Executor} {table : String} {rowId txnId : Nat}

theorem view_insert (storage : StorageEngine) (table : String) (row : Row) (txnId : Nat) :
    ∃ rowId, storage.view (table, rowId) = none ∧ (storage.insert table row txnId).2.view =
      Function.update storage.view (table, rowId) (some row) := by
  obtain ⟨rowId, tables, inserted, absent, -, view⟩ := storage.insert_spec table row txnId
  refine ⟨rowId, absent, ?_⟩
  rw [inserted, StorageEngine.view, StorageEngine.tables_log, view]

theorem rises_insert (s : Executor) (table : String) (row : Row) (txnId : Nat) :
    Rises s { s with storage := (s.storage.insert table row txnId).2 } := by
  obtain ⟨rowId, absent, view⟩ := view_insert s.storage table row txnId
  exact rises_of_update view (by rw [absent]; exact Nat.zero_le _)

theorem grew_insert (s : Executor) (table : String) (row : Row) (txnId : Nat) :
    Grew s { s with storage := (s.storage.insert table row txnId).2 } := by
  obtain ⟨rowId, absent, view⟩ := view_insert s.storage table row txnId
  exact grew_of_update view (by rw [absent]; exact Nat.succ_pos _)

/-- An `update` stores the row under the next version, or finds none. -/
theorem update_cases {storage storage' : StorageEngine} {row : Row} {version : Nat} {changed : Bool}
    (updated : storage.update table rowId row txnId version = .ok (changed, storage')) :
    storage' = storage ∨ ∃ existing, storage.view (table, rowId) = some existing ∧
      existing.version = version ∧ storage'.view = Function.update storage.view (table, rowId)
        (some { row with version := version + 1 }) := by
  rcases StorageEngine.update_outcome updated with
    ⟨-, -, same⟩ | ⟨-, existing, tables, present, expected, rfl, -, view⟩
  · exact .inl same
  · exact .inr ⟨existing, present, expected, by
      rw [StorageEngine.view, StorageEngine.tables_log, view]⟩

theorem rises_update (s : Executor) (table : String) (rowId : Nat) (row : Row)
    (txnId version : Nat) (changed : Bool) (storage : StorageEngine)
    (updated : s.storage.update table rowId row txnId version = .ok (changed, storage)) :
    Rises s { s with storage } := by
  obtain rfl | ⟨existing, present, expected, view⟩ := update_cases updated
  · exact fun _ => Nat.le_refl _
  · refine rises_of_update view ?_
    rw [present, ← expected]
    exact Nat.le_succ _

/-- A row just read is found under its version. -/
theorem update_accepts {storage : StorageEngine} {row existing : Row}
    (present : storage.view (table, rowId) = some existing) :
    ∃ storage', storage.update table rowId row txnId existing.version = .ok (true, storage') := by
  unfold StorageEngine.update
  cases found : storage.tables[table]? with
  | none => simp [StorageEngine.view, tablesView, found] at present
  | some data =>
      have stored : data.rows[rowId]? = some existing :=
        (view_of_getElem? found rowId).trans present
      dsimp only
      split
      · rename_i missing
        rw [stored] at missing
        cases missing
      · rename_i other same
        rw [stored] at same
        cases same
        rw [if_neg (by simp)]
        exact ⟨_, rfl⟩

theorem delete_cases {storage storage' : StorageEngine} {deleted : Bool}
    (ran : storage.delete table rowId txnId = .ok (deleted, storage')) :
    storage'.view = Function.update storage.view (table, rowId) none := by
  obtain ⟨tables, -, view, rfl, -⟩ := StorageEngine.delete_outcome ran
  split
  · rw [StorageEngine.view, StorageEngine.tables_log, view]
  · rw [StorageEngine.view, view]

theorem falls_delete (s : Executor) (table : String) (rowId txnId : Nat) (deleted : Bool)
    (storage : StorageEngine) (ran : s.storage.delete table rowId txnId = .ok (deleted, storage)) :
    Falls s { s with storage } := by
  intro key
  change rank (storage.view key) ≤ _
  rw [delete_cases ran, Function.update_apply]
  split
  · exact Nat.zero_le _
  · exact Nat.le_refl _

end Storage

section Refusals

variable [Runtime]

/-- The values of a new row, if they are accepted. -/
def acceptedValues (schema : TableSchema) (values : List Value) : Except Failure (List Value) := do
  let rowValues ← coerceRow schema values
  validateRow schema rowValues
  return rowValues

/-- The values of a rewritten row, if they are accepted. -/
def rewrittenValues (schema : TableSchema) (assignments : List Assignment)
    (excluded : Option (List Value)) (row : Row) : Except Failure (List Value) := do
  let values ← assignAll schema excluded assignments row.values
  validateRow schema values
  return values

/-- Whether a `DO UPDATE` applies to the row in conflict. -/
def conflictApplies (schema : TableSchema) (proposed : List Value) (update : DoUpdate)
    (existing : Row) : Except Failure Bool :=
  match update.selection with
  | some condition =>
      evalWhereWithExcluded condition existing.values schema.colNames (some proposed)
  | none => .ok true

/-- A rewrite is refused, and taking the row's keys out of the indexes before
changes no index. -/
def RewriteRefused (manager : IndexManager) (table : String) (schema : TableSchema)
    (assignments : List Assignment) (excluded : Option (List Value)) (rowId : Nat) (row : Row) :
    Prop :=
  (∃ e, rewrittenValues schema assignments excluded row = .error e) ∧
    ∀ other name, (manager.removeRow table row.values schema.colNames rowId).index? other name =
      manager.index? other name

/-- The row loop of `INSERT` fails before its first write: it comes, past rows
it has nothing to do for, to a row that is refused. -/
def InsertRefused (manager : IndexManager) (view : RowKey → Option Row) (table : String)
    (schema : TableSchema) (onConflict : Option OnConflict) : List (List Value) → Prop
  | [] => False
  | values :: rest => match acceptedValues schema values with
    | .error _ => True
    | .ok rowValues => match onConflict with
      | none => False
      | some conflict => match findConflictRow manager schema table conflict rowValues with
        | .error _ => True
        | .ok none => False
        | .ok (some rowId) => match conflict.action with
          | .doNothing => InsertRefused manager view table schema onConflict rest
          | .doUpdate update => match view (table, rowId) with
            | none => True
            | some existing => match conflictApplies schema rowValues update existing with
              | .error _ => True
              | .ok false => InsertRefused manager view table schema onConflict rest
              | .ok true => RewriteRefused manager table schema update.assignments
                  (some rowValues) rowId existing

/-- The row loop of `UPDATE` fails before its first write. -/
def UpdateRefused (manager : IndexManager) (table : String) (schema : TableSchema)
    (assignments : List Assignment) (whereClause : Option Expr) : List (Nat × Row) → Prop
  | [] => False
  | (rowId, row) :: rest => match selects whereClause row schema.colNames with
    | .error _ => True
    | .ok false => UpdateRefused manager table schema assignments whereClause rest
    | .ok true => RewriteRefused manager table schema assignments none rowId row

/-- The row loop of `DELETE` fails before its first write. -/
def DeleteRefused (schema : TableSchema) (whereClause : Option Expr) : List (Nat × Row) → Prop
  | [] => False
  | (_, row) :: rest => match selects whereClause row schema.colNames with
    | .error _ => True
    | .ok false => DeleteRefused schema whereClause rest
    | .ok true => False

end Refusals

section Loops

variable [Runtime] {s s' : Executor} {table : String} {schema : TableSchema} {txnId : Nat}
  {e : Failure}

/-- Storing a row leaves it behind whatever the indexes say. -/
theorem storeRow_grew (s : Executor) (table : String) (schema : TableSchema) (txnId : Nat)
    (rowValues : List Value) : Grew s (finalState (storeRow table schema txnId rowValues) s) := by
  have rest : Moves Rises (do
      ExecM.insertIndexRow table rowValues schema.colNames
        (s.storage.insert table (Row.new rowValues) txnId).1
      recordUndo (.insert table (s.storage.insert table (Row.new rowValues) txnId).1)) :=
    .seq (Moves.insertIndexRow (fun _ _ _ _ => Nat.le_refl _) _ _ _ _) fun _ =>
      Moves.recordUndo (fun _ _ _ => Nat.le_refl _) _
  exact (grew_insert s table (Row.new rowValues) txnId).rises (rest _)

/-- A refused rewrite has taken the row's keys out of the indexes. -/
theorem rewriteRow_refused {assignments : List Assignment} {excluded : Option (List Value)}
    {rowId : Nat} {row : Row}
    (refused : rewrittenValues schema assignments excluded row = .error e) :
    ∃ session, rewriteRow table schema assignments excluded txnId rowId row s =
      .error e { s with
        indexes := s.indexes.removeRow table row.values schema.colNames rowId, session } := by
  refine ⟨s.session.recordUndo (.update table rowId row), ?_⟩
  simp only [rewriteRow, recordUndo, ExecM.removeIndexRow, bind_eq_error, modify_eq_ok,
    modify_eq_error, false_or]
  refine ⟨(), _, rfl, (), _, rfl, ?_⟩
  cases assigned : assignAll schema excluded assignments row.values with
  | error e' =>
      simp only [rewrittenValues, assigned, bind, Except.bind] at refused
      cases refused
      exact .inl (ExecM.lift_eq_error.mpr ⟨rfl, rfl⟩)
  | ok values =>
      refine .inr ⟨values, _, ExecM.lift_eq_ok.mpr ⟨rfl, rfl⟩, .inl ?_⟩
      simp only [rewrittenValues, assigned, bind, Except.bind] at refused
      cases valid : validateRow schema values with
      | error e' =>
          rw [valid] at refused
          cases refused
          exact ExecM.lift_eq_error.mpr ⟨rfl, rfl⟩
      | ok u =>
          rw [valid] at refused
          cases refused

/-- An accepted rewrite leaves the row under its next version whatever the
indexes say. -/
theorem rewriteRow_grew {assignments : List Assignment} {excluded : Option (List Value)}
    {rowId : Nat} {row : Row} {values : List Value}
    (current : s.storage.view (table, rowId) = some row)
    (accepted : rewrittenValues schema assignments excluded row = .ok values) :
    Grew s (finalState (rewriteRow table schema assignments excluded txnId rowId row) s) := by
  have assigned : assignAll schema excluded assignments row.values = .ok values ∧
      validateRow schema values = .ok () := by
    unfold rewrittenValues at accepted
    cases assigned : assignAll schema excluded assignments row.values with
    | error e => simp [assigned, bind, Except.bind] at accepted
    | ok values' =>
        cases valid : validateRow schema values' with
        | error e => simp [assigned, valid, bind, Except.bind] at accepted
        | ok u =>
            simp only [assigned, valid, bind, Except.bind, pure, Except.pure,
              Except.ok.injEq] at accepted
            exact ⟨by rw [accepted], accepted ▸ valid⟩
  obtain ⟨storage, updated⟩ : ∃ storage, s.storage.update table rowId { row with values } txnId
      row.version = .ok (true, storage) := update_accepts current
  have grew : ∀ indexes session, Grew s { s with storage, indexes, session } := by
    intro indexes session
    obtain ⟨-, tables, rfl, -, view⟩ := StorageEngine.update_spec current updated
    have written : (StorageEngine.log { s.storage with tables }
        (.update txnId table rowId { values, version := row.version + 1 })).view =
        Function.update s.storage.view (table, rowId)
          (some { values, version := row.version + 1 }) := by
      rw [StorageEngine.view, StorageEngine.tables_log, view]
    refine grew_of_update written ?_
    rw [current]
    exact Nat.lt_succ_self _
  have rest : finalState (rewriteRow table schema assignments excluded txnId rowId row) s =
      finalState (ExecM.insertIndexRow table values schema.colNames rowId)
        { s with
          storage
          indexes := s.indexes.removeRow table row.values schema.colNames rowId
          session := s.session.recordUndo (.update table rowId row) } := by
    unfold finalState rewriteRow recordUndo ExecM.removeIndexRow
    simp only [bind, EStateM.bind, modify, modifyGet, MonadStateOf.modifyGet, EStateM.modifyGet,
      ExecM.lift, assigned.1, assigned.2, pure, EStateM.pure, ExecM.liftStorage, updated]
  rw [rest]
  have moves : Moves Rises (ExecM.insertIndexRow table values schema.colNames rowId) :=
    Moves.insertIndexRow (fun _ _ _ _ => Nat.le_refl _) _ _ _ _
  exact (grew _ _).rises (moves _)

omit [Runtime] in
/-- What was written shows when the rest of the statement fails. -/
theorem Grew.bind_error {α β : Type} {m : ExecM α} {f : α → ExecM β}
    (grew : Grew s (finalState m s)) (rises : ∀ a, Moves Rises (f a))
    (ran : (m >>= f) s = .error e s') : ¬ Unchanged s s' := by
  rcases bind_eq_error.mp ran with failed | ⟨a, mid, ended, failed⟩
  · rw [finalState_of_error failed] at grew
    exact grew.not_unchanged
  · rw [finalState_of_ok ended] at grew
    exact (grew.rises ((rises a).of_error failed)).not_unchanged

/-- A rewrite and what follows it leave no trace when they fail exactly when
the rewrite is refused and the row's keys were in no index. -/
theorem rewriteRow_bind_error {β : Type} {f : Unit → ExecM β} {assignments : List Assignment}
    {excluded : Option (List Value)} {rowId : Nat} {row : Row}
    (current : s.storage.view (table, rowId) = some row) (rises : ∀ a, Moves Rises (f a))
    (ran : (rewriteRow table schema assignments excluded txnId rowId row >>= f) s = .error e s') :
    Unchanged s s' ↔ RewriteRefused s.indexes table schema assignments excluded rowId row := by
  cases outcome : rewrittenValues schema assignments excluded row with
  | error e' =>
      obtain ⟨session, failed⟩ := rewriteRow_refused (s := s) outcome
      rcases bind_eq_error.mp ran with failed' | ⟨_, _, ended, -⟩
      · rw [failed] at failed'
        cases failed'
        refine Iff.trans (unchanged_of_tables ?_) ?_
        · rfl
        · exact ⟨fun same => ⟨⟨_, outcome⟩, same⟩, fun refused => refused.2⟩
      · rw [failed] at ended
        cases ended
  | ok values =>
      refine iff_of_false ((rewriteRow_grew current outcome).bind_error rises ran) fun refused => ?_
      obtain ⟨e', failed⟩ := refused.1
      rw [outcome] at failed
      cases failed

theorem acceptedValues_error {values : List Value}
    (refused : coerceRow schema values = .error e ∨ ∃ rowValues,
      coerceRow schema values = .ok rowValues ∧ validateRow schema rowValues = .error e) :
    acceptedValues schema values = .error e := by
  rcases refused with coerced | ⟨_, coerced, valid⟩
  · simp [acceptedValues, coerced, bind, Except.bind]
  · simp [acceptedValues, coerced, valid, bind, Except.bind]

theorem acceptedValues_ok {values rowValues : List Value} {u : Unit}
    (coerced : coerceRow schema values = .ok rowValues)
    (valid : validateRow schema rowValues = .ok u) :
    acceptedValues schema values = .ok rowValues := by
  simp [acceptedValues, coerced, valid, bind, Except.bind, pure, Except.pure]

theorem rises_insertRows (table : String) (schema : TableSchema)
    (onConflict : Option OnConflict) (txnId : Nat) (rows : List (List Value)) (count : Nat) :
    Moves Rises (insertRows table schema onConflict txnId rows count) :=
  Moves.insertRows (fun _ _ _ _ => Nat.le_refl _) (fun _ _ _ => Nat.le_refl _) (rises_update · · · · txnId)
    (rises_insert · · · txnId) _ _ _ _ _

/-- A `DO UPDATE` that fails leaves no trace exactly when it fails before it
writes; one that does not apply changes nothing. -/
theorem applyConflictUpdate_cases (s : Executor) (table : String) (schema : TableSchema)
    (rowId : Nat) (proposed : List Value) (update : DoUpdate) (txnId : Nat) :
    match s.storage.view (table, rowId) with
    | none => ∃ e, applyConflictUpdate table schema rowId proposed update txnId s = .error e s
    | some existing => match conflictApplies schema proposed update existing with
      | .error e => applyConflictUpdate table schema rowId proposed update txnId s = .error e s
      | .ok applies => applyConflictUpdate table schema rowId proposed update txnId s =
          if applies then rewriteRow table schema update.assignments (some proposed) txnId rowId
            existing s
          else .ok () s := by
  unfold applyConflictUpdate
  simp only [bind, EStateM.bind, get, getThe, MonadStateOf.get, EStateM.get,
    StorageEngine.get_eq_view]
  cases s.storage.view (table, rowId) with
  | none => exact ⟨_, rfl⟩
  | some existing =>
      unfold conflictApplies
      dsimp only
      cases update.selection with
      | none => rfl
      | some condition =>
          dsimp only
          cases evalWhereWithExcluded condition existing.values schema.colNames (some proposed) with
          | error e => rfl
          | ok applies => cases applies <;> rfl

/-- A `DO UPDATE` and what follows it, when they fail. -/
theorem applyConflictUpdate_bind_error {f : Unit → ExecM Nat} {skipped : Prop} {rowId : Nat}
    {proposed : List Value} {update : DoUpdate} (rises : ∀ a, Moves Rises (f a))
    (skip : f () s = .error e s' → (Unchanged s s' ↔ skipped))
    (ran : (applyConflictUpdate table schema rowId proposed update txnId >>= f) s = .error e s') :
    Unchanged s s' ↔ match s.storage.view (table, rowId) with
      | none => True
      | some existing => match conflictApplies schema proposed update existing with
        | .error _ => True
        | .ok false => skipped
        | .ok true => RewriteRefused s.indexes table schema update.assignments (some proposed) rowId
            existing := by
  have applied := applyConflictUpdate_cases s table schema rowId proposed update txnId
  cases present : s.storage.view (table, rowId) with
  | none =>
      simp only [present] at applied
      obtain ⟨e', failed⟩ := applied
      simp only [bind, EStateM.bind, failed] at ran
      cases ran
      exact iff_of_true (unchanged_refl s) trivial
  | some existing =>
      simp only [present] at applied ⊢
      cases applies : conflictApplies schema proposed update existing with
      | error e' =>
          simp only [applies] at applied ⊢
          simp only [bind, EStateM.bind, applied] at ran
          cases ran
          exact iff_of_true (unchanged_refl s) trivial
      | ok decision =>
          simp only [applies] at applied ⊢
          cases decision with
          | false =>
              simp only [Bool.false_eq_true, if_false] at applied
              simp only [bind, EStateM.bind, applied] at ran
              exact skip ran
          | true =>
              simp only [if_true] at applied
              have rewriting : (rewriteRow table schema update.assignments (some proposed) txnId
                  rowId existing >>= f) s = .error e s' := by
                simp only [bind, EStateM.bind, applied] at ran ⊢
                exact ran
              exact rewriteRow_bind_error present rises rewriting

/-- **The row loop of `INSERT` leaves no trace when it fails** exactly when it
fails before its first write. -/
theorem insertRows_error {onConflict : Option OnConflict} {rows : List (List Value)} {count : Nat}
    (ran : insertRows table schema onConflict txnId rows count s = .error e s') :
    Unchanged s s' ↔ InsertRefused s.indexes s.storage.view table schema onConflict rows := by
  induction rows generalizing count with
  | nil => cases pure_eq_error.mp ran
  | cons values rest ih =>
      have stored : ∀ {rowValues : List Value}, (storeRow table schema txnId rowValues >>= fun _ =>
          insertRows table schema onConflict txnId rest (count + 1)) s = .error e s' →
          ¬ Unchanged s s' :=
        (storeRow_grew s table schema txnId _).bind_error fun _ => rises_insertRows _ _ _ _ _ _
      simp only [insertRows, bind_eq_error, ExecM.lift_eq_error, ExecM.lift_eq_ok] at ran
      rcases ran with ⟨coerced, rfl⟩ | ⟨rowValues, _, ⟨coerced, rfl⟩,
        ⟨valid, rfl⟩ | ⟨_, _, ⟨valid, rfl⟩, ran⟩⟩
      · simp [InsertRefused, acceptedValues_error (.inl coerced), unchanged_refl]
      · simp [InsertRefused, acceptedValues_error (.inr ⟨_, coerced, valid⟩), unchanged_refl]
      · simp only [InsertRefused, acceptedValues_ok coerced valid]
        cases onConflict with
        | none => exact iff_of_false (stored ran) id
        | some conflict =>
            simp only [bind_eq_error, get_eq_error, get_eq_ok, ExecM.lift_eq_error,
              ExecM.lift_eq_ok, false_or] at ran
            obtain ⟨_, _, ⟨rfl, rfl⟩, ⟨conflicts, rfl⟩ | ⟨existing, _, ⟨conflicts, rfl⟩, ran⟩⟩ := ran
            · simp [conflicts, unchanged_refl]
            · cases existing with
              | none =>
                  simp only [conflicts]
                  exact iff_of_false (stored ran) id
              | some existingId =>
                  simp only [conflicts]
                  cases action : conflict.action with
                  | doNothing =>
                      simp only [action] at ran ⊢
                      exact ih ran
                  | doUpdate update =>
                      simp only [action] at ran ⊢
                      exact applyConflictUpdate_bind_error
                        (fun _ => rises_insertRows _ _ _ _ _ _) ih ran

theorem rises_updateRows (table : String) (schema : TableSchema) (assignments : List Assignment)
    (whereClause : Option Expr) (txnId : Nat) (rows : List (Nat × Row)) (count : Nat) :
    Moves Rises (updateRows table schema assignments whereClause txnId rows count) :=
  Moves.updateRows (fun _ _ _ _ => Nat.le_refl _) (fun _ _ _ => Nat.le_refl _) (rises_update · · · · txnId)
    _ _ _ _ _ _

/-- **The row loop of `UPDATE` leaves no trace when it fails** exactly when it
fails before its first write. -/
theorem updateRows_error {assignments : List Assignment} {whereClause : Option Expr}
    {rows : List (Nat × Row)} {count : Nat} (stored : StillStored s table rows)
    (ran : updateRows table schema assignments whereClause txnId rows count s = .error e s') :
    Unchanged s s' ↔ UpdateRefused s.indexes table schema assignments whereClause rows := by
  induction rows generalizing count with
  | nil => cases pure_eq_error.mp ran
  | cons entry rest ih =>
      obtain ⟨rowId, row⟩ := entry
      simp only [updateRows, bind_eq_error, ExecM.lift_eq_error, ExecM.lift_eq_ok] at ran
      rcases ran with ⟨undecided, rfl⟩ | ⟨selected, _, ⟨decided, rfl⟩, ran⟩
      · simp [UpdateRefused, undecided, unchanged_refl]
      · simp only [UpdateRefused, decided]
        cases selected with
        | false =>
            simp only [Bool.false_eq_true, if_false] at ran
            exact ih ⟨(List.nodup_cons.mp stored.1).2,
              fun other member => stored.2 other (List.mem_cons_of_mem _ member)⟩ ran
        | true =>
            simp only [if_true] at ran
            exact rewriteRow_bind_error (stored.2 (rowId, row) List.mem_cons_self)
              (fun _ => rises_updateRows _ _ _ _ _ _ _) ran

theorem falls_deleteRows (table : String) (schema : TableSchema) (whereClause : Option Expr)
    (txnId : Nat) (rows : List (Nat × Row)) (count : Nat) :
    Moves Falls (deleteRows table schema whereClause txnId rows count) :=
  Moves.deleteRows (fun _ _ _ _ => Nat.le_refl _) (fun _ _ _ => Nat.le_refl _) (falls_delete · · · txnId)
    _ _ _ _ _

/-- Deleting a stored row is accepted, and the row is gone. -/
theorem removeRow_shrunk {rowId : Nat} {row : Row}
    (current : s.storage.view (table, rowId) = some row) :
    ∃ mid, removeRow table schema txnId rowId row s = .ok () mid ∧ Grew mid s := by
  obtain ⟨deleted, storage, ran⟩ : ∃ deleted storage,
      s.storage.delete table rowId txnId = .ok (deleted, storage) := by
    unfold StorageEngine.delete
    cases found : s.storage.tables[table]? with
    | none => simp [StorageEngine.view, tablesView, found] at current
    | some data => exact ⟨_, _, rfl⟩
  refine ⟨{ s with
    storage
    indexes := s.indexes.removeRow table row.values schema.colNames rowId
    session := s.session.recordUndo (.delete table rowId row) }, ?_, (table, rowId), ?_⟩
  · simp only [removeRow, recordUndo, ExecM.removeIndexRow, bind_eq_ok, modify_eq_ok, pure_eq_ok,
      ExecM.liftStorage_eq_ok]
    exact ⟨(), _, rfl, (), _, rfl, deleted, _, ⟨storage, ran, rfl⟩, trivial, rfl⟩
  · change rank (storage.view (table, rowId)) < _
    rw [delete_cases ran, Function.update_self, current]
    exact Nat.succ_pos _

/-- **The row loop of `DELETE` leaves no trace when it fails** exactly when it
fails before its first write. -/
theorem deleteRows_error {whereClause : Option Expr} {rows : List (Nat × Row)} {count : Nat}
    (stored : StillStored s table rows)
    (ran : deleteRows table schema whereClause txnId rows count s = .error e s') :
    Unchanged s s' ↔ DeleteRefused schema whereClause rows := by
  induction rows generalizing count with
  | nil => cases pure_eq_error.mp ran
  | cons entry rest ih =>
      obtain ⟨rowId, row⟩ := entry
      simp only [deleteRows, bind_eq_error, ExecM.lift_eq_error, ExecM.lift_eq_ok] at ran
      rcases ran with ⟨undecided, rfl⟩ | ⟨selected, _, ⟨decided, rfl⟩, ran⟩
      · simp [DeleteRefused, undecided, unchanged_refl]
      · simp only [DeleteRefused, decided]
        cases selected with
        | false =>
            simp only [Bool.false_eq_true, if_false] at ran
            exact ih ⟨(List.nodup_cons.mp stored.1).2,
              fun other member => stored.2 other (List.mem_cons_of_mem _ member)⟩ ran
        | true =>
            simp only [if_true] at ran
            obtain ⟨mid, removed, shrunk⟩ := removeRow_shrunk
              (stored.2 (rowId, row) List.mem_cons_self)
            refine iff_of_false ?_ id
            rcases bind_eq_error.mp ran with failed | ⟨_, _, ended, failed⟩
            · rw [removed] at failed
              cases failed
            · rw [removed] at ended
              cases ended
              have falls := (falls_deleteRows table schema whereClause txnId rest (count + 1)).of_error
                failed
              exact (shrunk.falls falls).not_unchanged_of_shrunk

end Loops

section Statements

variable [Runtime] {s s' : Executor} {e : Failure}

/-- No transaction can be opened for the statement. -/
def Executor.beginRefused (s : Executor) : Prop :=
  s.session.transaction.txnId = none ∧ s.session.transaction.active = true

/-- `INSERT`, `UPDATE` and `DELETE`. -/
def Statement.isWrite : Statement → Bool
  | .insert _ => true
  | .update .. => true
  | .delete .. => true
  | _ => false

/-- A write statement fails before its first write. -/
def FailsBeforeWriting (s : Executor) : Statement → Prop
  | .insert stmt => match stmt.source with
    | none => True
    | some source =>
        match s.catalog.getTable (extractTableName stmt.tableName), valuesFromInsert source,
          conflictClause stmt.on with
        | .ok schema, .ok rows, .ok onConflict => s.beginRefused ∨
            InsertRefused s.indexes s.storage.view (extractTableName stmt.tableName) schema
              onConflict rows
        | _, _, _ => True
  | .update table assignments selection => match s.catalog.getTable table.relation.name with
    | .error _ => True
    | .ok schema => s.beginRefused ∨ UpdateRefused s.indexes table.relation.name schema assignments
        selection (s.storage.scan table.relation.name)
  | .delete relations selection =>
      match s.catalog.getTable ((relations.head?.map fun item => item.relation.name).getD "") with
      | .error _ => True
      | .ok schema => s.beginRefused ∨ DeleteRefused schema selection
          (s.storage.scan ((relations.head?.map fun item => item.relation.name).getD ""))
  | _ => True

/-- Two states are in the same transaction. -/
def SameTxn (s s' : Executor) : Prop :=
  s'.session.transaction.txnId = s.session.transaction.txnId

instance : IsPreorder Executor SameTxn where
  refl _ := rfl
  trans _ _ _ first second := second.trans first

omit [Runtime] in
theorem sameTxn_record (s : Executor) (entry : UndoRecord) :
    SameTxn s { s with session := s.session.recordUndo entry } :=
  (Session.recordUndo_txnId s.session entry).1

omit [Runtime] in
theorem beginWriteTxn_error (ran : beginWriteTxn s = .error e s') : s' = s ∧ s.beginRefused := by
  simp only [beginWriteTxn, bind_eq_error, get_eq_error, get_eq_ok, false_or] at ran
  obtain ⟨_, _, ⟨rfl, rfl⟩, ran⟩ := ran
  cases running : s.session.transaction.txnId with
  | some txnId =>
      simp only [running, pure_eq_error] at ran
  | none =>
      simp only [running] at ran
      cases active : s.session.transaction.active with
      | true =>
          simp only [bind, EStateM.bind, ExecM.liftTransaction, Transaction.begin, active, if_true,
            Except.map] at ran
          cases ran
          exact ⟨rfl, running, active⟩
      | false =>
          simp only [bind, EStateM.bind, ExecM.liftTransaction, Transaction.begin, active,
            Bool.false_eq_true, if_false, Except.map] at ran
          cases ran

omit [Runtime] in
theorem Enters.not_beginRefused {txnId : Nat} (enters : Enters s txnId s') :
    ¬ s.beginRefused ∧ s'.session.transaction.txnId = some txnId := by
  cases enters with
  | explicit inside => exact ⟨fun refused => (nomatch refused.1.symm.trans inside), inside⟩
  | automatic outside idle => exact ⟨fun refused => (nomatch refused.2.symm.trans idle), rfl⟩

omit [Runtime] in
/-- The transaction of a statement can always be committed. -/
theorem finishAutoCommitIfNeeded_accepts {txnId : Nat}
    (running : s.session.transaction.txnId = some txnId) :
    finishAutoCommitIfNeeded s ≠ .error e s' := by
  intro ran
  simp only [finishAutoCommitIfNeeded, bind_eq_error, get_eq_error, get_eq_ok, false_or] at ran
  obtain ⟨_, _, ⟨rfl, rfl⟩, ran⟩ := ran
  split at ran
  · simp only [bind, EStateM.bind, ExecM.liftTransaction, Transaction.commit, running,
      Except.map] at ran
    cases ran
  · cases pure_eq_error.mp ran

omit [Runtime] in
/-- A write statement that comes to its row loop fails in it, or cannot open
its transaction. -/
theorem writeStatement_error {loop : Nat → ExecM Nat} {result : Nat → QueryResult}
    {refused : Prop} (keeps : ∀ txnId, Moves SameTxn (loop txnId))
    (failed : ∀ {txnId : Nat} {entered : Executor}, Enters s txnId entered →
      loop txnId entered = .error e s' → (Unchanged entered s' ↔ refused))
    (ran : (do
      let txnId ← beginWriteTxn
      let count ← loop txnId
      finishAutoCommitIfNeeded
      return result count : ExecM QueryResult) s = .error e s') :
    Unchanged s s' ↔ s.beginRefused ∨ refused := by
  rcases bind_eq_error.mp ran with refused | ⟨txnId, entered, begun, ran⟩
  · obtain ⟨rfl, refused⟩ := beginWriteTxn_error refused
    exact iff_of_true (unchanged_refl s') (.inl refused)
  · have enters := beginWriteTxn_ok begun
    obtain ⟨open_, running⟩ := enters.not_beginRefused
    have same : Unchanged s s' ↔ Unchanged entered s' := by
      obtain ⟨-, tables, indexes, -⟩ := enters.frame
      have scans : ∀ table, entered.storage.scan table = s.storage.scan table := fun table => by
        unfold StorageEngine.scan
        rw [tables]
      constructor
      · exact fun unchanged => ⟨fun table => (unchanged.rows table).trans (scans table).symm,
          fun table name => indexes ▸ unchanged.indexes table name⟩
      · exact fun unchanged => ⟨fun table => (unchanged.rows table).trans (scans table),
          fun table name => indexes ▸ unchanged.indexes table name⟩
    rw [same, or_iff_right open_]
    rcases bind_eq_error.mp ran with inLoop | ⟨count, changed, looped, ran⟩
    · exact failed enters inLoop
    · have running' : changed.session.transaction.txnId = some txnId :=
        ((keeps txnId).of_ok looped).trans running
      rcases bind_eq_error.mp ran with inFinish | ⟨_, _, -, returned⟩
      · exact absurd inFinish (finishAutoCommitIfNeeded_accepts running')
      · cases pure_eq_error.mp returned

theorem executeSession_error {stmt : Statement} (ran : executeSession [stmt] s = .error e s') :
    executeStatement stmt s = .error e s' := by
  simp only [executeSession, execute, executeAll, List.cons_ne_nil, if_false, bind_eq_error,
    pure_eq_error, bind_eq_ok, pure_eq_ok, and_false, exists_false, or_false] at ran
  rcases ran with failed | ⟨result, mid, -, failed⟩
  · exact failed
  · split at failed
    · rcases bind_eq_error.mp failed with saving | ⟨_, _, -, returned⟩
      · cases modify_eq_error.mp saving
      · cases pure_eq_error.mp returned
    · cases pure_eq_error.mp failed

omit [Runtime] in
/-- A check before the first write either fails and changes nothing or is passed. -/
theorem lift_bind_error {α β : Type} {result : Except Failure α} {f : α → ExecM β}
    (ran : (ExecM.lift result >>= f) s = .error e s') :
    (result = .error e ∧ Unchanged s s') ∨ ∃ a, result = .ok a ∧ f a s = .error e s' := by
  simp only [bind_eq_error, ExecM.lift_eq_error, ExecM.lift_eq_ok] at ran
  rcases ran with ⟨failed, rfl⟩ | ⟨a, _, ⟨passed, rfl⟩, ran⟩
  · exact .inl ⟨failed, unchanged_refl s⟩
  · exact .inr ⟨a, passed, ran⟩

theorem insert_error {stmt : Insert} (ran : insert stmt s = .error e s') :
    Unchanged s s' ↔ FailsBeforeWriting s (.insert stmt) := by
  unfold insert at ran
  simp only [FailsBeforeWriting]
  cases source : stmt.source with
  | none =>
      rw [source] at ran
      obtain ⟨-, rfl⟩ := throw_eq_error.mp ran
      exact iff_of_true (unchanged_refl s) trivial
  | some query =>
      rw [source] at ran
      obtain ⟨_, _, read, ran⟩ := (bind_eq_error.mp ran).resolve_left get_eq_error.mp
      obtain ⟨rfl, rfl⟩ := get_eq_ok.mp read
      rcases lift_bind_error ran with ⟨table, unchanged⟩ | ⟨schema, table, ran⟩
      · simp only [table, iff_true]
        exact unchanged
      rcases lift_bind_error ran with ⟨values, unchanged⟩ | ⟨rows, values, ran⟩
      · simp only [table, values, iff_true]
        exact unchanged
      rcases lift_bind_error ran with ⟨clause, unchanged⟩ | ⟨onConflict, clause, ran⟩
      · simp only [table, values, clause, iff_true]
        exact unchanged
      simp only [table, values, clause]
      refine writeStatement_error (fun txnId => ?_) (fun enters failed => ?_) ran
      · exact Moves.insertRows (fun _ _ _ => rfl) sameTxn_record (fun _ _ _ _ _ _ _ _ => rfl)
          (fun _ _ _ => rfl) _ _ _ _ _
      · obtain ⟨-, tables, indexes, -⟩ := enters.frame
        have view : ∀ entered : Executor, entered.storage.tables = s.storage.tables →
            entered.storage.view = s.storage.view := fun entered same => by
          unfold StorageEngine.view
          rw [same]
        rw [insertRows_error failed, indexes, view _ tables]

theorem update_error {table : String} {assignments : List Assignment} {whereClause : Option Expr}
    (ran : update table assignments whereClause s = .error e s') :
    Unchanged s s' ↔ match s.catalog.getTable table with
      | .error _ => True
      | .ok schema => s.beginRefused ∨ UpdateRefused s.indexes table schema assignments whereClause
          (s.storage.scan table) := by
  unfold update at ran
  obtain ⟨_, _, read, ran⟩ := (bind_eq_error.mp ran).resolve_left get_eq_error.mp
  obtain ⟨rfl, rfl⟩ := get_eq_ok.mp read
  rcases lift_bind_error ran with ⟨found, unchanged⟩ | ⟨schema, found, ran⟩
  · simp only [found, iff_true]
    exact unchanged
  simp only [found]
  refine writeStatement_error (fun txnId => ?_) (fun enters failed => ?_) ran
  · exact Moves.updateRows (fun _ _ _ => rfl) sameTxn_record (fun _ _ _ _ _ _ _ _ => rfl)
      _ _ _ _ _ _
  · rw [updateRows_error (enters.stillStored (stillStored_scan s table)) failed,
      enters.frame.2.2.1]

theorem delete_error {table : String} {whereClause : Option Expr}
    (ran : delete table whereClause s = .error e s') :
    Unchanged s s' ↔ match s.catalog.getTable table with
      | .error _ => True
      | .ok schema => s.beginRefused ∨ DeleteRefused schema whereClause (s.storage.scan table) := by
  unfold delete at ran
  obtain ⟨_, _, read, ran⟩ := (bind_eq_error.mp ran).resolve_left get_eq_error.mp
  obtain ⟨rfl, rfl⟩ := get_eq_ok.mp read
  rcases lift_bind_error ran with ⟨found, unchanged⟩ | ⟨schema, found, ran⟩
  · simp only [found, iff_true]
    exact unchanged
  simp only [found]
  refine writeStatement_error (fun txnId => ?_) (fun enters failed => ?_) ran
  · exact Moves.deleteRows (fun _ _ _ => rfl) sameTxn_record (fun _ _ _ _ _ _ => rfl) _ _ _ _ _
  · exact deleteRows_error (enters.stillStored (stillStored_scan s table)) failed

/-- **A failed statement changes nothing** exactly when it fails before its
first write: for every state and every `INSERT`, `UPDATE` and `DELETE` that
fails, the rows of every table and the contents of every index are as before if
and only if no row was stored, rewritten or deleted before the failure and no
key was taken out of an index. -/
theorem failed_statement_unchanged_iff {stmt : Statement} (isWrite : stmt.isWrite = true)
    (ran : executeSession [stmt] s = .error e s') :
    Unchanged s s' ↔ FailsBeforeWriting s stmt := by
  have failed := executeSession_error ran
  cases stmt with
  | insert stmt => exact insert_error failed
  | update table assignments selection => exact update_error failed
  | delete relations selection => exact delete_error failed
  | startTransaction => cases isWrite
  | commit => cases isWrite
  | rollback => cases isWrite
  | createTable => cases isWrite
  | drop => cases isWrite
  | query => cases isWrite
  | createIndex => cases isWrite
  | explain => cases isWrite
  | other => cases isWrite

end Statements

/-- Run statements that return `Ok`, then one that fails: the state before it,
the failure, and the state after it. -/
def runAndFail [Runtime] (stmts : List Statement) (stmt : Statement) :
    Option (Executor × Failure × Executor) := do
  let s ← runStatements ddlOutside .fresh stmts
  match executeSession [stmt] s with
  | .ok _ _ => none
  | .error e s' => some (s, e, s')

theorem executeSession_of_runAndFail [Runtime] {stmts : List Statement} {stmt : Statement}
    {s s' : Executor} {e : Failure} (ran : runAndFail stmts stmt = some (s, e, s')) :
    executeSession [stmt] s = .error e s' := by
  obtain ⟨before, -, failed⟩ := Option.bind_eq_some_iff.mp ran
  cases outcome : executeSession [stmt] before with
  | ok result final =>
      rw [outcome] at failed
      cases failed
  | error e final =>
      rw [outcome] at failed
      cases failed
      exact outcome

/-- A row refused for its primary key stays in the table. -/
theorem duplicate_row_stays :
    ((@runAndFail Runtime.reference [createT, insertT [1]] (insertT [1])).map fun failed =>
      (failed.2.1, failed.1.storage.scan "t", failed.2.2.storage.scan "t")) =
    some (.error (.duplicateKey "unique index 't_pkey' violation"), [(1, ⟨[.int4 1], 1⟩)],
      [(1, ⟨[.int4 1], 1⟩), (2, ⟨[.int4 1], 1⟩)]) := by
  decide +kernel

/-- A row refused for its primary key, and the condition under which it would
have left no trace. -/
theorem failed_statement_unchanged_iff_duplicate :
    ∃ s e s', @executeSession Runtime.reference [insertT [1]] s = .error e s' ∧
      (Unchanged s s' ↔ @FailsBeforeWriting Runtime.reference s (insertT [1])) := by
  obtain ⟨⟨s, e, s'⟩, ran⟩ : ∃ failed,
      @runAndFail Runtime.reference [createT, insertT [1]] (insertT [1]) = some failed :=
    Option.isSome_iff_exists.mp (by decide +kernel)
  have failed := @executeSession_of_runAndFail Runtime.reference _ _ _ _ _ ran
  exact ⟨s, e, s', failed, @failed_statement_unchanged_iff Runtime.reference _ _ _ _ rfl failed⟩

end MoodengSQL
