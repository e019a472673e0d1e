import MoodengSQL.Core.Paths
import MoodengSQL.Core.Wal

/-!
# Row storage

Tables held in memory with `.dat` files behind them, as the engine runs with
`max_cached_pages = 0` and no `.pages` files. Every logged operation changes the
rows in memory, appends a record to the log and then takes a checkpoint if the
interval has passed. File-system calls succeed.
-/

namespace MoodengSQL

open Std

/-- `TableData`. Every row id is below the next one to be given out. -/
structure TableData where
  rows : Map Nat Row
  nextId : Nat
  fresh : ∀ id ∈ rows, id < nextId

namespace TableData

/-- `TableData::default`. -/
def empty : TableData where
  rows := ∅
  nextId := 1
  fresh := by simp

/-- `TableBackend::apply_insert` on a table in memory. -/
def applyInsert (data : TableData) (rowId : Nat) (row : Row) : TableData where
  rows := data.rows.insert rowId row
  nextId := if data.nextId ≤ rowId then rowId + 1 else data.nextId
  fresh := by
    intro id member
    rcases ExtTreeMap.mem_insert.mp member with same | member
    · have : rowId = id := LawfulEqOrd.eq_of_compare same
      split <;> omega
    · have := data.fresh id member
      split <;> omega

/-- `TableBackend::insert` on a table in memory. -/
def insert (data : TableData) (row : Row) : Nat × TableData :=
  (data.nextId,
    { rows := data.rows.insert data.nextId row
      nextId := data.nextId + 1
      fresh := by
        intro id member
        rcases ExtTreeMap.mem_insert.mp member with same | member
        · have : data.nextId = id := LawfulEqOrd.eq_of_compare same
          omega
        · exact (data.fresh id member).trans (Nat.lt_succ_self _) })

/-- `TableBackend::scan` on a table in memory: the rows by ascending id. -/
def scan (data : TableData) : List (Nat × Row) := data.rows.toList

/-- `TableBackend::update` on a table in memory. The engine calls it for a row
it has just read. -/
def update (data : TableData) (rowId : Nat) (row : Row) (present : rowId ∈ data.rows) :
    TableData where
  rows := data.rows.insert rowId row
  nextId := data.nextId
  fresh := by
    intro id member
    rcases ExtTreeMap.mem_insert.mp member with same | member
    · exact LawfulEqOrd.eq_of_compare same ▸ data.fresh rowId present
    · exact data.fresh id member

/-- `TableBackend::delete` on a table in memory. -/
def delete (data : TableData) (rowId : Nat) : Bool × TableData :=
  (rowId ∈ data.rows,
    { rows := data.rows.erase rowId
      nextId := data.nextId
      fresh := fun id member => data.fresh id (ExtTreeMap.mem_of_mem_erase member) })

end TableData

/-- `StorageEngine`: the tables in memory, the log, and the `.dat` files by their
paths. -/
structure StorageEngine where
  tables : Map String TableData
  wal : WriteAheadLog
  datFiles : Map String (FileImage TableData)

namespace StorageEngine

/-- `read_table_file`: an empty file is an empty table. -/
def readTableFile : FileImage TableData → TableData
  | .truncated => .empty
  | .written data => data

/-- `load_table`. -/
def loadTable (datFiles : Map String (FileImage TableData)) (table : String) : TableData :=
  match datFiles[tablePath table]? with
  | some image => readTableFile image
  | none => .empty

/-- `load_all`: every entry of the data directory with the extension `dat` becomes
a table. -/
def loadAll (datFiles : Map String (FileImage TableData)) : Map String TableData :=
  (datFiles.keys.filterMap tableOfPath).foldl
    (fun tables table => tables.insert table (loadTable datFiles table)) ∅

/-- `StorageEngine::open`. -/
def «open» (wal : WriteAheadLog) (datFiles : Map String (FileImage TableData)) : StorageEngine :=
  { tables := loadAll datFiles, wal, datFiles }

/-- `persist_table`, for a table that exists. -/
def persistTable (storage : StorageEngine) (table : String) : StorageEngine :=
  match storage.tables[table]? with
  | some data =>
      { storage with datFiles := storage.datFiles.insert (tablePath table) (.written data) }
  | none => storage

/-- `checkpoint_all`. -/
def checkpointAll [Runtime] (storage : StorageEngine) : StorageEngine :=
  (Runtime.hashOrder.order "tables" storage.tables.keys).foldl persistTable storage

/-- `recovery::checkpoint`. -/
def checkpoint [Runtime] (storage : StorageEngine) : StorageEngine :=
  let saved := storage.checkpointAll
  { saved with wal := (saved.wal.markCheckpoint saved.wal.lsn).truncate }

/-- `maybe_checkpoint`. -/
def maybeCheckpoint [Runtime] (storage : StorageEngine) : StorageEngine :=
  if storage.wal.shouldCheckpoint then storage.checkpoint else storage

/-- Append a record and take a checkpoint if one is due: the end of every
logged operation. -/
def log [Runtime] (storage : StorageEngine) (op : WalOp) : StorageEngine :=
  { storage with wal := storage.wal.append op }.maybeCheckpoint

/-- `ensure_table`. -/
def ensureTable (storage : StorageEngine) (table : String) : StorageEngine :=
  { storage with tables := storage.tables.insertIfNew table .empty }

/-- `StorageEngine::insert`. -/
def insert [Runtime] (storage : StorageEngine) (table : String) (row : Row) (txnId : Nat) :
    Nat × StorageEngine :=
  let (rowId, data) := (storage.tables.getD table .empty).insert row
  (rowId, { storage with tables := storage.tables.insert table data }.log
    (.insert txnId table rowId row))

/-- `StorageEngine::apply_insert`. -/
def applyInsert [Runtime] (storage : StorageEngine) (table : String) (rowId : Nat) (row : Row)
    (log : Bool) (txnId : Nat) : StorageEngine :=
  let data := (storage.tables.getD table .empty).applyInsert rowId row
  let applied := { storage with tables := storage.tables.insert table data }
  if log then applied.log (.insert txnId table rowId row) else applied

/-- `StorageEngine::get`. -/
def get (storage : StorageEngine) (table : String) (rowId : Nat) : Option Row :=
  match storage.tables[table]? with
  | some data => data.rows[rowId]?
  | none => none

/-- `StorageEngine::scan`. -/
def scan (storage : StorageEngine) (table : String) : List (Nat × Row) :=
  match storage.tables[table]? with
  | some data => data.scan
  | none => []

/-- `StorageEngine::fetch_by_ids`. -/
def fetchByIds (storage : StorageEngine) (table : String) (ids : List Nat) :
    Except Failure (List (Nat × Row)) :=
  match storage.tables[table]? with
  | some data => .ok (ids.filterMap fun id => data.rows[id]?.map fun row => (id, row))
  | none => .error (.error (.tableNotFound table))

/-- `StorageEngine::update`. The row is stored under the version after the
expected one. -/
def update [Runtime] (storage : StorageEngine) (table : String) (rowId : Nat) (row : Row)
    (txnId expectedVersion : Nat) : Except Failure (Bool × StorageEngine) :=
  match storage.tables[table]? with
  | none => .error (.error (.tableNotFound table))
  | some data => match found : data.rows[rowId]? with
    | none => .ok (false, storage)
    | some existing =>
        if existing.version ≠ expectedVersion then
          .error (.error (.versionConflict table rowId))
        else
          let row := { row with version := expectedVersion + 1 }
          let data := data.update rowId row (Map.mem_of_getElem?_eq_some found)
          .ok (true, { storage with tables := storage.tables.insert table data }.log
            (.update txnId table rowId row))

/-- `StorageEngine::apply_update`. The row is stored under the version after
the one it replaces. -/
def applyUpdate [Runtime] (storage : StorageEngine) (table : String) (rowId : Nat) (row : Row)
    (log : Bool) (txnId : Nat) : Except Failure (Bool × StorageEngine) :=
  match storage.tables[table]? with
  | none => .error (.error (.tableNotFound table))
  | some data => match found : data.rows[rowId]? with
    | none => .ok (false, storage)
    | some existing =>
        let row := { row with version := existing.version + 1 }
        let data := data.update rowId row (Map.mem_of_getElem?_eq_some found)
        let applied := { storage with tables := storage.tables.insert table data }
        .ok (true, if log then applied.log (.update txnId table rowId row) else applied)

/-- `StorageEngine::delete`. -/
def delete [Runtime] (storage : StorageEngine) (table : String) (rowId : Nat) (txnId : Nat) :
    Except Failure (Bool × StorageEngine) :=
  match storage.tables[table]? with
  | none => .error (.error (.tableNotFound table))
  | some data =>
      let (deleted, data) := data.delete rowId
      let applied := { storage with tables := storage.tables.insert table data }
      .ok (deleted, if deleted then applied.log (.delete txnId table rowId) else applied)

/-- `StorageEngine::apply_delete`. -/
def applyDelete [Runtime] (storage : StorageEngine) (table : String) (rowId : Nat)
    (log : Bool) (txnId : Nat) : Except Failure (Bool × StorageEngine) :=
  match storage.tables[table]? with
  | none => .error (.error (.tableNotFound table))
  | some data =>
      let (deleted, data) := data.delete rowId
      let applied := { storage with tables := storage.tables.insert table data }
      .ok (deleted, if deleted && log then applied.log (.delete txnId table rowId) else applied)

/-- `StorageEngine::drop_table`. -/
def dropTable (storage : StorageEngine) (table : String) : StorageEngine :=
  { storage with
    tables := storage.tables.erase table
    datFiles := storage.datFiles.erase (tablePath table) }

end StorageEngine

end MoodengSQL
