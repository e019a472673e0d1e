import MoodengSQL.Execution.Statements

/-!
# Undo

An explicit transaction keeps the undo records of its row changes. They form a
chain from the rows at its begin to the rows now; undoing them from the last to
the first is always accepted, because the rows at every point of the chain
differed in the keys of every unique index.
-/

namespace MoodengSQL

open Foundation Foundation.Effect Relation

/-- The undo records of the changes that led from `start` to the rows now. -/
inductive UndoChain (catalog : Catalog) (manager : IndexManager) (start : Contents) :
    List UndoRecord → Contents → Prop
  | nil : UndoChain catalog manager start [] start
  | snoc {records : List UndoRecord} {contents : Contents} {key : RowKey} {change : RowChange}
      {schema : TableSchema} (chain : UndoChain catalog manager start records contents)
      (known : catalog[key.1]? = some schema)
      (current : contents key = change.before.map Row.values)
      (distinct : Distinguishes catalog manager contents) :
      UndoChain catalog manager start (records ++ [change.undo key])
        (Function.update contents key (change.after.map Row.values))

theorem UndoChain.of_sameDefinitions {catalog : Catalog} {manager manager' : IndexManager}
    {start now : Contents} {records : List UndoRecord}
    (chain : UndoChain catalog manager start records now)
    (same : SameDefinitions manager manager') : UndoChain catalog manager' start records now := by
  induction chain with
  | nil => exact .nil
  | snoc _ known current distinct ih =>
      exact ih.snoc known current (distinct.of_sameDefinitions same)

/-- The rows and indexes after undoing; everything else is as before. -/
structure Undone (s : Executor) (start : Contents) (s' : Executor) : Prop where
  state : ∃ tables indexes,
    s' = { s with storage := { s.storage with tables }, indexes } ∧
      ∀ name ∈ s.storage.tables, name ∈ tables
  contents : s'.storage.contents = start
  agree : Agree s.catalog s'.indexes start
  sameDefinitions : SameDefinitions s.indexes s'.indexes
  untouched : ∀ ⦃table : String⦄, s.catalog[table]? = none → ∀ name,
    s'.indexes.index? table name = s.indexes.index? table name

variable [Runtime]

/-- Undoing a row change is accepted and gives the rows before it. -/
theorem applyUndo_spec {s : Executor} {before : Contents} {key : RowKey} {change : RowChange}
    {schema : TableSchema} (agree : Agree s.catalog s.indexes s.storage.contents)
    (known : s.catalog[key.1]? = some schema)
    (current : before key = change.before.map Row.values)
    (now : s.storage.contents = Function.update before key (change.after.map Row.values))
    (distinct : Distinguishes s.catalog s.indexes before) :
    ∃ s', applyUndo (change.undo key) s = .ok () s' ∧ Undone s before s' := by
  obtain ⟨table, rowId⟩ := key
  have here : s.storage.contents (table, rowId) = change.after.map Row.values := by
    rw [now, Function.update_self]
  have back : Function.update s.storage.contents (table, rowId) (change.before.map Row.values) =
      before := by
    rw [now, Function.update_idem, ← current, Function.update_eq_self]
  have table? : s.catalog.getTable table = .ok schema := getTable_eq_ok.mpr known
  obtain ⟨indexes, reindexed⟩ := agree.exists_reindexed known here (by rwa [back])
  have agreed := agree.reindexed known here reindexed
  rw [back] at agreed
  have untouched : ∀ ⦃other : String⦄, s.catalog[other]? = none → ∀ name,
      indexes.index? other name = s.indexes.index? other name := by
    intro other unknown name
    refine reindexed.index?_of_ne ?_ name
    rintro rfl
    rw [known] at unknown
    cases unknown
  cases change with
  | insert row =>
      obtain ⟨stored, present, sameValues⟩ := Option.map_eq_some_iff.mp here
      obtain ⟨changed, tables, deleted, grows, undone⟩ := StorageEngine.applyDelete_spec
        (StorageEngine.mem_tables_of_view present) rowId 0
      refine ⟨{ s with storage := { s.storage with tables }, indexes }, ?_, ⟨tables, indexes, rfl,
        grows⟩, ?_, agreed, reindexed.sameDefinitions, untouched⟩
      · have removed : indexes = s.indexes.removeRow table stored.values schema.colNames rowId := by
          rw [sameValues]
          exact reindexed
        subst removed
        simp only [applyUndo, RowChange.undo, bind_eq_ok, get_eq_ok]
        refine ⟨s, s, ⟨rfl, rfl⟩, ?_⟩
        simp only [StorageEngine.get_eq_view, present, bind_eq_ok, ExecM.lift_eq_ok,
          ExecM.removeIndexRow, modify_eq_ok, ExecM.liftStorage_eq_ok, pure_eq_ok]
        exact ⟨schema, s, ⟨table?, rfl⟩, ⟨⟩, _, rfl, changed, _, ⟨_, deleted, rfl⟩, trivial, rfl⟩
      · exact (StorageEngine.contents_with_tables undone).trans back
  | update old new =>
      obtain ⟨stored, present, sameValues⟩ := Option.map_eq_some_iff.mp here
      obtain ⟨changed, tables, updated, grows, undone⟩ := StorageEngine.applyUpdate_spec
        (StorageEngine.mem_tables_of_view present) rowId old 0
      rw [present] at undone
      refine ⟨{ s with storage := { s.storage with tables }, indexes }, ?_, ⟨tables, indexes, rfl,
        grows⟩, ?_, agreed, reindexed.sameDefinitions, untouched⟩
      · have inserted : (s.indexes.removeRow table stored.values schema.colNames rowId).insertRow
            table old.values schema.colNames rowId = (.ok (), indexes) := by
          rw [sameValues]
          exact reindexed
        simp only [applyUndo, RowChange.undo, bind_eq_ok, get_eq_ok]
        refine ⟨s, s, ⟨rfl, rfl⟩, schema, s, ExecM.lift_eq_ok.mpr ⟨table?, rfl⟩, ?_⟩
        simp only [StorageEngine.get_eq_view, present, bind_eq_ok, ExecM.removeIndexRow,
          modify_eq_ok, ExecM.liftStorage_eq_ok, ExecM.insertIndexRow, ExecM.liftIndexes_eq_ok]
        exact ⟨⟨⟩, _, rfl, changed, _, ⟨_, updated, rfl⟩, indexes, inserted, rfl⟩
      · exact (StorageEngine.contents_with_tables undone).trans back
  | delete old =>
      obtain ⟨tables, inserted, grows, undone⟩ :=
        StorageEngine.applyInsert_spec s.storage table rowId old 0
      refine ⟨{ s with storage := { s.storage with tables }, indexes }, ?_, ⟨tables, indexes, rfl,
        grows⟩, ?_, agreed, reindexed.sameDefinitions, untouched⟩
      · simp only [applyUndo, RowChange.undo, bind_eq_ok, get_eq_ok]
        refine ⟨s, s, ⟨rfl, rfl⟩, schema, s, ExecM.lift_eq_ok.mpr ⟨table?, rfl⟩, ?_⟩
        simp only [modify_eq_ok, ExecM.insertIndexRow, ExecM.liftIndexes_eq_ok, inserted]
        exact ⟨⟨⟩, _, rfl, indexes, reindexed, rfl⟩
      · exact (StorageEngine.contents_with_tables undone).trans back

omit [Runtime] in
theorem Undone.trans {s mid s' : Executor} {between start : Contents}
    (first : Undone s between mid) (second : Undone mid start s') : Undone s start s' := by
  obtain ⟨tables, indexes, rfl, grows⟩ := first.state
  obtain ⟨tables', indexes', rfl, grows'⟩ := second.state
  exact ⟨⟨tables', indexes', rfl, fun name member => grows' name (grows name member)⟩,
    second.contents, second.agree, first.sameDefinitions.trans second.sameDefinitions,
    fun table unknown name => (second.untouched unknown name).trans
      (first.untouched unknown name)⟩

/-- **Undoing a chain is accepted and gives the rows it started from.** -/
theorem undoAll_spec {s : Executor} {start : Contents} {records : List UndoRecord}
    (agree : Agree s.catalog s.indexes s.storage.contents)
    (chain : UndoChain s.catalog s.indexes start records s.storage.contents) :
    ∃ s', undoAll records.reverse s = .ok () s' ∧ Undone s start s' := by
  suffices general : ∀ (catalog : Catalog) (manager : IndexManager) (now : Contents),
      UndoChain catalog manager start records now → ∀ s : Executor, s.catalog = catalog →
      SameDefinitions manager s.indexes → Agree catalog s.indexes now →
      s.storage.contents = now →
      ∃ s', undoAll records.reverse s = .ok () s' ∧ Undone s start s' from
    general s.catalog s.indexes s.storage.contents chain s rfl (fun _ _ => rfl) agree rfl
  clear chain agree s
  intro catalog manager now chain
  induction chain with
  | nil =>
      rintro s rfl - agree rfl
      exact ⟨s, rfl, ⟨s.storage.tables, s.indexes, rfl, fun _ => id⟩, rfl, agree, fun _ _ => rfl,
        fun _ _ _ => rfl⟩
  | @snoc records contents key change schema chain known current distinct ih =>
      rintro s rfl same agree now
      obtain ⟨mid, undone, first⟩ := applyUndo_spec (now ▸ agree) known current now
        (distinct.of_sameDefinitions same)
      have catalog : mid.catalog = s.catalog := by
        obtain ⟨tables, indexes, rfl, -⟩ := first.state
        rfl
      obtain ⟨s', rest, second⟩ := ih mid catalog (same.trans first.sameDefinitions)
        first.agree first.contents
      refine ⟨s', ?_, first.trans second⟩
      rw [List.reverse_concat]
      exact bind_eq_ok.mpr ⟨(), mid, undone, rest⟩

end MoodengSQL
