import MoodengSQL.Index.Manager
import MoodengSQL.Core.Storage

/-!
# What storage operations do to the rows

Storage seen as a map from tables and row ids to rows. Every operation changes
at most one place of the map, and logging, checkpoints and table files do not
touch it.
-/

namespace MoodengSQL

open Std

/-- The rows of a collection of tables. -/
def tablesView (tables : Map String TableData) : RowKey → Option Row :=
  fun key => match tables[key.1]? with
    | some data => data.rows[key.2]?
    | none => none

theorem tablesView_insert (tables : Map String TableData) (table : String) (data : TableData)
    (key : RowKey) :
    tablesView (tables.insert table data) key =
      if key.1 = table then data.rows[key.2]? else tablesView tables key := by
  simp only [tablesView, ExtTreeMap.getElem?_insert, Std.compare_eq_iff_eq]
  by_cases here : key.1 = table
  · simp [here]
  · simp [here, Ne.symm here]

/-- Replacing a table by one that differs in a single row changes a single place. -/
theorem tablesView_insert_eq_update {tables : Map String TableData} {table : String}
    {data data' : TableData} {rowId : Nat} {row : Option Row}
    (found : ∀ id, data.rows[id]? = tablesView tables (table, id))
    (changed : ∀ id, data'.rows[id]? = if id = rowId then row else data.rows[id]?) :
    tablesView (tables.insert table data') =
      Function.update (tablesView tables) (table, rowId) row := by
  funext key
  obtain ⟨other, id⟩ := key
  rw [tablesView_insert, Function.update_apply]
  by_cases here : other = table
  · subst here
    simp only [Prod.mk.injEq, true_and, if_true, changed, found]
  · simp [here]

theorem mem_insert_of_mem {tables : Map String TableData} {table name : String} {data : TableData}
    (member : name ∈ tables) : name ∈ tables.insert table data :=
  ExtTreeMap.mem_insert.mpr (.inr member)

theorem view_of_getElem? {tables : Map String TableData} {table : String} {data : TableData}
    (found : tables[table]? = some data) (id : Nat) :
    data.rows[id]? = tablesView tables (table, id) := by
  simp [tablesView, found]

theorem view_of_getD (tables : Map String TableData) (table : String) (id : Nat) :
    (tables.getD table .empty).rows[id]? = tablesView tables (table, id) := by
  rw [ExtTreeMap.getD_eq_getD_getElem?]
  cases found : tables[table]? <;> simp [tablesView, found, TableData.empty]

namespace TableData

theorem rows_insert (rows : Map Nat Row) (rowId id : Nat) (row : Row) :
    (rows.insert rowId row)[id]? = if id = rowId then some row else rows[id]? := by
  simp only [ExtTreeMap.getElem?_insert, Std.compare_eq_iff_eq, eq_comm (a := rowId)]

theorem rows_erase (rows : Map Nat Row) (rowId id : Nat) :
    (rows.erase rowId)[id]? = if id = rowId then none else rows[id]? := by
  simp only [ExtTreeMap.getElem?_erase, Std.compare_eq_iff_eq, eq_comm (a := rowId)]

theorem getElem?_nextId (data : TableData) : data.rows[data.nextId]? = none := by
  refine ExtTreeMap.getElem?_eq_none fun member => ?_
  exact Nat.lt_irrefl _ (data.fresh _ member)

end TableData

namespace StorageEngine

section Files

variable {datFiles : Map String (FileImage TableData)} {table : String}

/-- The tables a directory listing names, each loaded. -/
theorem getElem?_loadTables (names : List String) (load : String → TableData)
    (tables : Map String TableData) :
    (names.foldl (fun tables name => tables.insert name (load name)) tables)[table]? =
      if table ∈ names then some (load table) else tables[table]? := by
  induction names generalizing tables with
  | nil => simp
  | cons name names ih =>
      rw [List.foldl_cons, ih, ExtTreeMap.getElem?_insert]
      by_cases here : name = table
      · subst here
        simp
      · simp [here, Ne.symm here]

/-- **What `load_all` makes of the files**: a table for every entry that a name
other than the empty one leads to. -/
theorem getElem?_loadAll (datFiles : Map String (FileImage TableData)) (table : String) :
    (loadAll datFiles)[table]? =
      if isEntry table = true ∧ table ≠ "" then
        datFiles[tablePath table]?.map readTableFile
      else none := by
  have listed : table ∈ datFiles.keys.filterMap tableOfPath ↔
      (isEntry table = true ∧ table ≠ "") ∧ table ++ ".dat" ∈ datFiles := by
    simp only [List.mem_filterMap, ExtTreeMap.mem_keys, tableOfPath_eq_some]
    constructor
    · rintro ⟨path, member, entry, named, rfl⟩
      exact ⟨⟨entry, named⟩, member⟩
    · rintro ⟨⟨entry, named⟩, member⟩
      exact ⟨_, member, entry, named, rfl⟩
  rw [loadAll, getElem?_loadTables, ExtTreeMap.getElem?_empty]
  by_cases named : isEntry table = true ∧ table ≠ ""
  · rw [if_pos named, tablePath_of_isEntry named.1]
    cases found : datFiles[table ++ ".dat"]? with
    | none =>
        rw [if_neg fun member => ?_]
        · rfl
        · have present := ExtTreeMap.isSome_getElem?_iff_mem.mpr (listed.mp member).2
          rw [found] at present
          cases present
    | some image =>
        rw [if_pos (listed.mpr ⟨named, Map.mem_of_getElem?_eq_some found⟩), loadTable,
          tablePath_of_isEntry named.1, found]
        rfl
  · rw [if_neg named, if_neg fun member => named (listed.mp member).1]

/-- A table whose name can be that of a file is loaded from it. -/
theorem getElem?_loadAll_of_isFileName (plain : isFileName table = true) :
    (loadAll datFiles)[table]? = datFiles[tablePath table]?.map readTableFile := by
  rw [getElem?_loadAll, if_pos ⟨isEntry_of_isFileName plain, (isFileName_iff.mp plain).1⟩]

@[simp] theorem loadAll_empty : loadAll ∅ = ∅ := by
  refine ExtTreeMap.ext_getElem? fun table => ?_
  rw [getElem?_loadAll]
  simp

end Files

/-- The rows in memory. -/
def view (storage : StorageEngine) : RowKey → Option Row := tablesView storage.tables

/-- The values of the rows in memory. -/
def contents (storage : StorageEngine) : Contents := fun key => (storage.view key).map Row.values

/-- Changing a row changes its values and no others. -/
theorem contents_eq_update {storage storage' : StorageEngine} {key : RowKey} {row : Option Row}
    (changed : storage'.view = Function.update storage.view key row) :
    storage'.contents = Function.update storage.contents key (row.map Row.values) := by
  funext other
  rw [contents, changed, Function.update_apply, Function.update_apply]
  split <;> rfl

/-- The same for tables written without a log record. -/
theorem contents_with_tables {storage : StorageEngine} {tables : Map String TableData}
    {key : RowKey} {row : Option Row}
    (changed : tablesView tables = Function.update storage.view key row) :
    contents { storage with tables } =
      Function.update storage.contents key (row.map Row.values) :=
  contents_eq_update changed

/-- The rows a scan lists. -/
theorem mem_scan {storage : StorageEngine} {table : String} {rowId : Nat} {row : Row} :
    (rowId, row) ∈ storage.scan table ↔ storage.view (table, rowId) = some row := by
  unfold scan view tablesView
  cases storage.tables[table]? with
  | none => simp
  | some data => exact ExtTreeMap.mem_toList_iff_getElem?_eq_some

theorem mem_tables_of_view {storage : StorageEngine} {key : RowKey} {row : Row}
    (present : storage.view key = some row) : key.1 ∈ storage.tables := by
  cases found : storage.tables[key.1]? with
  | none => simp [view, tablesView, found] at present
  | some data => exact Map.mem_of_getElem?_eq_some found

theorem get_eq_view (storage : StorageEngine) (table : String) (rowId : Nat) :
    storage.get table rowId = storage.view (table, rowId) := rfl

section Frame

@[simp] theorem tables_persistTable (storage : StorageEngine) (table : String) :
    (storage.persistTable table).tables = storage.tables := by
  unfold persistTable
  split <;> rfl

@[simp] theorem wal_persistTable (storage : StorageEngine) (table : String) :
    (storage.persistTable table).wal = storage.wal := by
  unfold persistTable
  split <;> rfl

theorem frame_persistTables (names : List String) (storage : StorageEngine) :
    (names.foldl persistTable storage).tables = storage.tables ∧
      (names.foldl persistTable storage).wal = storage.wal := by
  induction names generalizing storage with
  | nil => exact ⟨rfl, rfl⟩
  | cons name names ih =>
      rw [List.foldl_cons]
      obtain ⟨tables, wal⟩ := ih (storage.persistTable name)
      exact ⟨tables.trans (tables_persistTable _ _), wal.trans (wal_persistTable _ _)⟩

variable [Runtime]

@[simp] theorem tables_checkpointAll (storage : StorageEngine) :
    storage.checkpointAll.tables = storage.tables :=
  (frame_persistTables _ storage).1

@[simp] theorem wal_checkpointAll (storage : StorageEngine) :
    storage.checkpointAll.wal = storage.wal :=
  (frame_persistTables _ storage).2

@[simp] theorem tables_checkpoint (storage : StorageEngine) :
    storage.checkpoint.tables = storage.tables :=
  tables_checkpointAll storage

/-- Logging leaves the rows alone. -/
@[simp] theorem tables_log (storage : StorageEngine) (op : WalOp) :
    (storage.log op).tables = storage.tables := by
  unfold log maybeCheckpoint
  split
  · exact tables_checkpoint _
  · rfl

theorem view_log (storage : StorageEngine) (tables : Map String TableData) (op : WalOp) :
    (log { storage with tables } op).view = tablesView tables :=
  congrArg tablesView (tables_log _ op)

end Frame

section Operations

variable [Runtime]

/-- `insert` stores the row under an id that is not in use. -/
theorem insert_spec (storage : StorageEngine) (table : String) (row : Row) (txnId : Nat) :
    ∃ rowId tables,
      storage.insert table row txnId =
        (rowId, log { storage with tables } (.insert txnId table rowId row)) ∧
      storage.view (table, rowId) = none ∧
      (∀ name ∈ storage.tables, name ∈ tables) ∧
      tablesView tables = Function.update storage.view (table, rowId) (some row) := by
  refine ⟨_, _, rfl, ?_, fun _ => mem_insert_of_mem, ?_⟩
  · exact (view_of_getD storage.tables table _).symm.trans (TableData.getElem?_nextId _)
  · exact tablesView_insert_eq_update (view_of_getD storage.tables table)
      fun id => TableData.rows_insert _ _ id row

/-- `update` of a stored row of the expected version replaces it. -/
theorem update_spec {storage storage' : StorageEngine} {table : String} {rowId : Nat}
    {row existing : Row} {txnId expectedVersion : Nat} {changed : Bool}
    (present : storage.view (table, rowId) = some existing)
    (ran : storage.update table rowId row txnId expectedVersion = .ok (changed, storage')) :
    existing.version = expectedVersion ∧
      ∃ tables,
        storage' = log { storage with tables }
          (.update txnId table rowId { row with version := expectedVersion + 1 }) ∧
        (∀ name ∈ storage.tables, name ∈ tables) ∧
        tablesView tables = Function.update storage.view (table, rowId)
          (some { row with version := expectedVersion + 1 }) := by
  unfold update at ran
  cases found : storage.tables[table]? with
  | none => simp [view, tablesView, found] at present
  | some data =>
      have stored : data.rows[rowId]? = some existing :=
        (view_of_getElem? found rowId).trans present
      rw [found] at ran
      dsimp only at ran
      split at ran
      · rename_i missing
        rw [stored] at missing
        cases missing
      · rename_i other same
        rw [stored] at same
        cases same
        split at ran
        · cases ran
        · rename_i version
          cases ran
          refine ⟨Decidable.not_not.mp version, _, rfl, fun _ => mem_insert_of_mem, ?_⟩
          exact tablesView_insert_eq_update (view_of_getElem? found)
            fun id => TableData.rows_insert _ _ id _

/-- `delete` of a stored row removes it. -/
theorem delete_spec {storage storage' : StorageEngine} {table : String} {rowId : Nat}
    {existing : Row} {txnId : Nat} {changed : Bool}
    (present : storage.view (table, rowId) = some existing)
    (ran : storage.delete table rowId txnId = .ok (changed, storage')) :
    ∃ tables,
      storage' = log { storage with tables } (.delete txnId table rowId) ∧
      (∀ name ∈ storage.tables, name ∈ tables) ∧
      tablesView tables = Function.update storage.view (table, rowId) none := by
  unfold delete at ran
  cases found : storage.tables[table]? with
  | none => simp [view, tablesView, found] at present
  | some data =>
      have stored : rowId ∈ data.rows :=
        Map.mem_of_getElem?_eq_some ((view_of_getElem? found rowId).trans present)
      rw [found] at ran
      simp only [TableData.delete, stored, decide_true, if_true, Except.ok.injEq,
        Prod.mk.injEq] at ran
      refine ⟨_, ran.2.symm, fun _ => mem_insert_of_mem, ?_⟩
      exact tablesView_insert_eq_update (view_of_getElem? found)
        fun id => TableData.rows_erase _ _ id

/-- An accepted `update` found no row, or one of the expected version. -/
theorem update_outcome {storage storage' : StorageEngine} {table : String} {rowId : Nat}
    {row : Row} {txnId expectedVersion : Nat} {changed : Bool}
    (ran : storage.update table rowId row txnId expectedVersion = .ok (changed, storage')) :
    changed = false ∧ storage.view (table, rowId) = none ∧ storage' = storage ∨
      changed = true ∧ ∃ existing tables, storage.view (table, rowId) = some existing ∧
        existing.version = expectedVersion ∧
        storage' = log { storage with tables }
          (.update txnId table rowId { row with version := expectedVersion + 1 }) ∧
        (∀ name ∈ storage.tables, name ∈ tables) ∧
        tablesView tables = Function.update storage.view (table, rowId)
          (some { row with version := expectedVersion + 1 }) := by
  cases found : storage.tables[table]? with
  | none =>
      unfold update at ran
      rw [found] at ran
      cases ran
  | some data =>
      have rows := view_of_getElem? found rowId
      have outcome := ran
      unfold update at outcome
      rw [found] at outcome
      dsimp only at outcome
      split at outcome
      · rename_i missing
        cases outcome
        exact .inl ⟨rfl, rows.symm.trans missing, rfl⟩
      · rename_i existing stored
        have present := rows.symm.trans stored
        obtain ⟨expected, tables, logged, grows, view⟩ := update_spec present ran
        split at outcome
        · cases outcome
        · cases outcome
          exact .inr ⟨rfl, existing, tables, present, expected, logged, grows, view⟩

/-- A refused `update` knows no such table, or found another version. -/
theorem update_refused {storage : StorageEngine} {table : String} {rowId : Nat} {row : Row}
    {txnId expectedVersion : Nat} {e : Failure}
    (ran : storage.update table rowId row txnId expectedVersion = .error e) :
    storage.tables[table]? = none ∧ e = .error (.tableNotFound table) ∨
      ∃ existing, storage.view (table, rowId) = some existing ∧
        existing.version ≠ expectedVersion ∧ e = .error (.versionConflict table rowId) := by
  unfold update at ran
  cases found : storage.tables[table]? with
  | none =>
      rw [found] at ran
      cases ran
      exact .inl ⟨rfl, rfl⟩
  | some data =>
      rw [found] at ran
      dsimp only at ran
      split at ran
      · cases ran
      · rename_i existing stored
        split at ran
        · rename_i differs
          cases ran
          exact .inr ⟨existing, (view_of_getElem? found rowId).symm.trans stored, differs, rfl⟩
        · cases ran

/-- An accepted `delete` leaves no such row, and logs it if there was one. -/
theorem delete_outcome {storage storage' : StorageEngine} {table : String} {rowId txnId : Nat}
    {deleted : Bool} (ran : storage.delete table rowId txnId = .ok (deleted, storage')) :
    ∃ tables, (∀ name ∈ storage.tables, name ∈ tables) ∧
      tablesView tables = Function.update storage.view (table, rowId) none ∧
      storage' = (if deleted then log { storage with tables } (.delete txnId table rowId)
        else { storage with tables }) ∧
      deleted = (storage.view (table, rowId)).isSome := by
  unfold delete at ran
  cases found : storage.tables[table]? with
  | none =>
      rw [found] at ran
      cases ran
  | some data =>
      rw [found] at ran
      obtain ⟨existed, stored⟩ := Prod.mk.inj (Except.ok.inj ran)
      refine ⟨_, fun _ => mem_insert_of_mem, tablesView_insert_eq_update (view_of_getElem? found)
        fun id => TableData.rows_erase _ _ id, existed ▸ stored.symm, existed.symm.trans ?_⟩
      have row : data.rows[rowId]? = storage.view (table, rowId) := view_of_getElem? found rowId
      have member : rowId ∈ data.rows ↔ data.rows[rowId]?.isSome = true :=
        ExtTreeMap.mem_iff_isSome_getElem?
      rw [← row, Bool.eq_iff_iff, decide_eq_true_iff]
      exact member

/-- `apply_insert` without logging stores the row. -/
theorem applyInsert_spec (storage : StorageEngine) (table : String) (rowId : Nat) (row : Row)
    (txnId : Nat) :
    ∃ tables, storage.applyInsert table rowId row false txnId = { storage with tables } ∧
      (∀ name ∈ storage.tables, name ∈ tables) ∧
      tablesView tables = Function.update storage.view (table, rowId) (some row) :=
  ⟨_, rfl, fun _ => mem_insert_of_mem, tablesView_insert_eq_update (view_of_getD storage.tables table)
    fun id => TableData.rows_insert _ _ id row⟩

/-- `apply_update` without logging replaces a stored row and ignores a missing one. -/
theorem applyUpdate_spec {storage : StorageEngine} {table : String}
    (known : table ∈ storage.tables) (rowId : Nat) (row : Row) (txnId : Nat) :
    ∃ changed tables, storage.applyUpdate table rowId row false txnId =
        .ok (changed, { storage with tables }) ∧
      (∀ name ∈ storage.tables, name ∈ tables) ∧
      tablesView tables = match storage.view (table, rowId) with
        | some existing => Function.update storage.view (table, rowId)
            (some { row with version := existing.version + 1 })
        | none => storage.view := by
  obtain ⟨data, found⟩ := Option.isSome_iff_exists.mp
    (ExtTreeMap.mem_iff_isSome_getElem?.mp known)
  have rows := view_of_getElem? found
  simp only [applyUpdate, found]
  split
  · rename_i missing
    have absent : storage.view (table, rowId) = none := (rows rowId).symm.trans missing
    exact ⟨false, storage.tables, rfl, fun _ => id, by rw [absent]; rfl⟩
  · rename_i existing stored
    have present : storage.view (table, rowId) = some existing := (rows rowId).symm.trans stored
    refine ⟨true, _, rfl, fun _ => mem_insert_of_mem, ?_⟩
    rw [present]
    exact tablesView_insert_eq_update rows fun id => TableData.rows_insert _ _ id _

/-- `apply_delete` without logging removes the row if there is one. -/
theorem applyDelete_spec {storage : StorageEngine} {table : String}
    (known : table ∈ storage.tables) (rowId : Nat) (txnId : Nat) :
    ∃ changed tables, storage.applyDelete table rowId false txnId =
        .ok (changed, { storage with tables }) ∧
      (∀ name ∈ storage.tables, name ∈ tables) ∧
      tablesView tables = Function.update storage.view (table, rowId) none := by
  obtain ⟨data, found⟩ := Option.isSome_iff_exists.mp
    (ExtTreeMap.mem_iff_isSome_getElem?.mp known)
  simp only [applyDelete, found, Bool.and_false, Bool.false_eq_true, if_false]
  refine ⟨_, _, rfl, fun _ => mem_insert_of_mem, ?_⟩
  exact tablesView_insert_eq_update (view_of_getElem? found)
    fun id => TableData.rows_erase _ _ id

/-- An accepted `apply_update` without logging changed the tables only. -/
theorem applyUpdate_outcome {storage storage' : StorageEngine} {table : String} {rowId txnId : Nat}
    {row : Row} {changed : Bool}
    (ran : storage.applyUpdate table rowId row false txnId = .ok (changed, storage')) :
    ∃ tables, storage' = { storage with tables } ∧ ∀ name ∈ storage.tables, name ∈ tables := by
  by_cases known : table ∈ storage.tables
  · obtain ⟨_, tables, applied, grows, -⟩ := applyUpdate_spec known rowId row txnId
    rw [applied] at ran
    cases ran
    exact ⟨tables, rfl, grows⟩
  · rw [applyUpdate, ExtTreeMap.getElem?_eq_none known] at ran
    cases ran

/-- An accepted `apply_update` without logging puts the values in place of those
of the row, if there is one. -/
theorem contents_applyUpdate {storage storage' : StorageEngine} {table : String}
    {rowId txnId : Nat} {row : Row} {changed : Bool}
    (ran : storage.applyUpdate table rowId row false txnId = .ok (changed, storage')) :
    storage'.contents = Function.update storage.contents (table, rowId)
      ((storage.contents (table, rowId)).map fun _ => row.values) := by
  by_cases known : table ∈ storage.tables
  · obtain ⟨_, tables, applied, -, view⟩ := applyUpdate_spec known rowId row txnId
    cases applied.symm.trans ran
    cases stored : storage.view (table, rowId) with
    | none =>
        rw [stored] at view
        have absent : storage.contents (table, rowId) = none := by simp [contents, stored]
        rw [absent, Option.map_none, Function.update_eq_self_iff.mpr absent.symm]
        exact funext fun key => congrArg (Option.map Row.values) (congrFun view key)
    | some existing =>
        rw [stored] at view
        simpa [contents, stored] using contents_with_tables view
  · rw [applyUpdate, ExtTreeMap.getElem?_eq_none known] at ran
    cases ran

/-- An accepted `apply_delete` without logging changed the tables only. -/
theorem applyDelete_outcome {storage storage' : StorageEngine} {table : String} {rowId txnId : Nat}
    {deleted : Bool}
    (ran : storage.applyDelete table rowId false txnId = .ok (deleted, storage')) :
    ∃ tables, storage' = { storage with tables } ∧ ∀ name ∈ storage.tables, name ∈ tables := by
  by_cases known : table ∈ storage.tables
  · obtain ⟨_, tables, applied, grows, -⟩ := applyDelete_spec known rowId txnId
    rw [applied] at ran
    cases ran
    exact ⟨tables, rfl, grows⟩
  · rw [applyDelete, ExtTreeMap.getElem?_eq_none known] at ran
    cases ran

end Operations

end StorageEngine

end MoodengSQL
