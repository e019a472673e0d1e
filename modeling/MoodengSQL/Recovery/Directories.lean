import MoodengSQL.Paging.Migration
import MoodengSQL.Recovery.Backups

/-!
# Data directories with either kind of table

A database is opened with storage options: its tables are held in memory, with a
`.dat` file behind each, or in pages, in a `.pages` file. A directory has the files
of its tables by their stems, which are the names of the tables as long as these can
be those of files. A table that has a `.pages` file is opened from it whatever the
options are and whatever its `.dat` file holds.
-/

namespace MoodengSQL

open Foundation Foundation.Effect Std

/-- `StorageOptions`. -/
structure StorageOptions where
  maxCachedPages : Nat
  rowsPerPage : Nat

/-- `StorageOptions::default`. -/
def StorageOptions.default : StorageOptions :=
  { maxCachedPages := 0, rowsPerPage := DEFAULT_ROWS_PER_PAGE }

/-- The files of a data directory. A `.dat` file stands for what `read_table_file`
makes of its bytes. -/
structure Directory where
  walLog : List WalEntry
  checkpointBin : Option (FileImage Nat)
  metaBin : Option (FileImage DatabaseSnapshot)
  dat : Map String (Except MoodengError TableData)
  pages : Map String (List UInt8)

/-- A database of tables of either kind, with the `.dat` files behind it. A table in
pages has its file in hand. -/
structure StoredDatabase where
  options : StorageOptions
  catalog : Catalog
  tables : Map String TableBackend
  indexes : IndexManager
  wal : WriteAheadLog
  dat : Map String (Except MoodengError TableData)
  metaFile : Option (FileImage DatabaseSnapshot)
  activeWriteTxns : Nat

/-- The ids and the values of rows. -/
def idsAndValues (rows : List (Nat × Row)) : List (Nat × List Value) :=
  rows.map fun entry => (entry.1, entry.2.values)

namespace TableBackend

/-- The `.pages` file of a table. -/
def pagesFile : TableBackend → Option (List UInt8)
  | memory _ => none
  | paged pt => pt.file

/-- `TableBackend::scan`. What it caches is left out. -/
def scan [Runtime] (codec : PageCodec) : TableBackend → Except Failure (List (Nat × Row))
  | memory data => .ok data.scan
  | paged pt => PageTable.answer (PageTable.scan codec) pt

/-- The row ids and the values of a table. -/
def rows [Runtime] (codec : PageCodec) (backend : TableBackend) :
    Except Failure (List (Nat × List Value)) :=
  (backend.scan codec).map idsAndValues

end TableBackend

/-- The files behind a database. -/
def StoredDatabase.directory (db : StoredDatabase) : Directory where
  walLog := db.wal.file
  checkpointBin := db.wal.checkpointFile
  metaBin := db.metaFile
  dat := db.dat
  pages := db.tables.filterMap fun _ => TableBackend.pagesFile

section Loading

variable [Runtime] (codec : PageCodec) (options : StorageOptions)

/-- `load_table`. A `.dat` file that does not decode is read unless there is a
`.pages` file. -/
def Directory.loadTable (dir : Directory) (stem : String) : Except Failure TableBackend :=
  match dir.pages[stem]?, dir.dat[stem]? with
  | none, some (.error e) => .error (.error e)
  | pages, dat =>
      let legacy := dat.bind Except.toOption
      let rows := (legacy.map fun data => data.rows.toList).getD []
      (MoodengSQL.loadTable codec options.maxCachedPages options.rowsPerPage
        (Runtime.hashOrder.order "TableData.rows" rows)
        { pages, dat := legacy.map .written }).1

/-- The loop of `load_all`. -/
def Directory.loadEach (dir : Directory) :
    List String → Map String TableBackend → Except Failure (Map String TableBackend)
  | [], tables => .ok tables
  | stem :: rest, tables => do
      let backend ← dir.loadTable codec options stem
      dir.loadEach rest (tables.insert stem backend)

/-- `load_all`: the stems of the `.dat` and the `.pages` files are collected in a hash
set. -/
def Directory.loadAll (dir : Directory) : Except Failure (Map String TableBackend) :=
  dir.loadEach codec options
    (Runtime.hashOrder.order "load_all" (dir.dat.keys ++ dir.pages.keys).dedup) ∅

/-- `new_empty_backend`, for a table that has no file. -/
def newEmptyBackend : TableBackend :=
  if 0 < options.maxCachedPages then
    .paged (.open none options.maxCachedPages options.rowsPerPage)
  else .memory .empty

/-- `ensure_table`. -/
def ensureBackend (tables : Map String TableBackend) (table : String) :
    Map String TableBackend :=
  tables.insertIfNew table (newEmptyBackend options)

/-- A call on a table in pages. -/
def onPages {α : Type} (call : PageM α) (pt : PageTable) : Except Failure (α × PageTable) :=
  match call pt with
  | .ok a pt => .ok (a, pt)
  | .error e _ => .error e

/-- `apply_wal_op`, not logged. -/
def applyToBackends (tables : Map String TableBackend) :
    WalOp → Except Failure (Map String TableBackend)
  | .begin _ => .ok tables
  | .commit _ => .ok tables
  | .abort _ => .ok tables
  | .insert _ table rowId row =>
      match tables.getD table (newEmptyBackend options) with
      | .memory data => .ok (tables.insert table (.memory (data.applyInsert rowId row)))
      | .paged pt => do
          let (_, pt) ← onPages (PageTable.applyInsert codec rowId row) pt
          return tables.insert table (.paged pt)
  | .update _ table rowId row =>
      match tables[table]? with
      | none => .error (.error (.tableNotFound table))
      | some (.memory data) =>
          if present : rowId ∈ data.rows then
            let row := { row with version := data.rows[rowId].version + 1 }
            .ok (tables.insert table (.memory (data.update rowId row present)))
          else .ok tables
      | some (.paged pt) => do
          let (existing, pt) ← onPages (PageTable.get codec rowId) pt
          match existing with
          | none => return tables.insert table (.paged pt)
          | some existing =>
              let row := { row with version := existing.version + 1 }
              let (_, pt) ← onPages (PageTable.update codec rowId row) pt
              return tables.insert table (.paged pt)
  | .delete _ table rowId =>
      match tables[table]? with
      | none => .error (.error (.tableNotFound table))
      | some (.memory data) => .ok (tables.insert table (.memory (data.delete rowId).2))
      | some (.paged pt) => do
          let (_, pt) ← onPages (PageTable.delete codec rowId) pt
          return tables.insert table (.paged pt)

/-- `replay_wal` on the records read from the log. -/
def replayBackends (tables : Map String TableBackend) (entries : List WalEntry) :
    Except Failure (Map String TableBackend) :=
  let txns := entries.foldl groupEntry ∅
  let states := Runtime.hashOrder.order "replay_wal" (txns.toList.map Prod.snd)
  (sortByLsn (collectCommitted states)).foldlM
    (fun tables entry => applyToBackends codec options tables entry.2) tables

/-- `StorageEngine::scan`. -/
def scanBackend (tables : Map String TableBackend) (table : String) :
    Except Failure (List (Nat × Row)) :=
  match tables[table]? with
  | none => .ok []
  | some backend => backend.scan codec

/-- The table loop of `rebuild_all`. A table without an index is not scanned. -/
def rebuildBackends (catalog : Catalog) (tables : Map String TableBackend) :
    List String → IndexManager → Except Failure IndexManager
  | [], manager => .ok manager
  | table :: rest, manager => do
      let schema ← catalog.getTable table
      let rows ← if schema.indexes = [] then .ok [] else scanBackend codec tables table
      let manager ← rebuildIndexes table schema.colNames rows schema.indexes manager
      rebuildBackends catalog tables rest manager

/-- The log, the tables and the catalog as `Database::open_with_options` finds them in
the files. The `.dat` files of tables that were imported into pages are gone. -/
def StoredDatabase.load (dir : Directory) : Except Failure StoredDatabase := do
  let tables ← dir.loadAll codec options
  let catalog := diskCatalog dir.metaBin
  return {
    options, catalog
    tables := catalog.listTables.foldl (ensureBackend options) tables
    indexes := ∅
    wal := .open dir.walLog dir.checkpointBin
    dat := if 0 < options.maxCachedPages then dir.dat.filter fun stem _ => stem ∈ dir.pages
      else dir.dat
    metaFile := dir.metaBin
    activeWriteTxns := 0 }

/-- `Database::open_with_options`. -/
def StoredDatabase.open (dir : Directory) : Except Failure StoredDatabase := do
  let db ← load codec options dir
  let tables ← replayBackends codec options db.tables (db.wal.replaySince db.wal.checkpointLsn)
  let indexes ← rebuildBackends codec db.catalog tables db.catalog.listTables ∅
  return { db with tables, indexes }

/-- The row ids and the values of a table of the database. -/
def StoredDatabase.rows (db : StoredDatabase) (table : String) :
    Except Failure (List (Nat × List Value)) :=
  (scanBackend codec db.tables table).map idsAndValues

end Loading

section Backup

variable [Runtime]

/-- `persist_table`, for a table that exists. -/
def StoredDatabase.persistTable (db : StoredDatabase) (table : String) :
    Except Failure StoredDatabase :=
  match db.tables[table]? with
  | none => .error (.error (.tableNotFound table))
  | some (.memory data) => .ok { db with dat := db.dat.insert table (.ok data) }
  | some (.paged pt) => do
      let (_, pt) ← onPages PageTable.flushAll pt
      return { db with tables := db.tables.insert table (.paged pt) }

/-- `recovery::checkpoint`: the tables are persisted, and the log is marked and
truncated. -/
def StoredDatabase.checkpointStorage (db : StoredDatabase) : Except Failure StoredDatabase := do
  let db ← (Runtime.hashOrder.order "tables" db.tables.keys).foldlM StoredDatabase.persistTable db
  return { db with wal := (db.wal.markCheckpoint db.wal.lsn).truncate }

/-- `Database::persist`. -/
def StoredDatabase.persist (db : StoredDatabase) : StoredDatabase :=
  { db with metaFile := some (.written { tables := db.catalog.snapshot, indexes := db.indexes }) }

/-- `Database::checkpoint`. -/
def StoredDatabase.checkpoint (db : StoredDatabase) : Except Failure StoredDatabase := do
  let db ← db.checkpointStorage
  return db.persist

/-- `backup_live` on a database that no other session uses: `none` where it never
returns. -/
def StoredDatabase.backupLive (db : StoredDatabase) : Option (Except Failure Directory) := do
  waitForWriteTxns db.activeWriteTxns
  waitForWriteTxns db.activeWriteTxns
  return db.checkpoint.map StoredDatabase.directory

/-- `restore`: the files of the archive are written over those of the directory. -/
def Directory.restoreInto (archive target : Directory) : Directory where
  walLog := archive.walLog
  checkpointBin := archive.checkpointBin.or target.checkpointBin
  metaBin := archive.metaBin.or target.metaBin
  dat := target.dat ∪ archive.dat
  pages := target.pages ∪ archive.pages

end Backup

end MoodengSQL
