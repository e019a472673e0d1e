import MoodengSQL.Core.Executor
import MoodengSQL.Core.Recovery

/-!
# The database engine

Opening a data directory, running statements in a session, checkpoints, and
what a crash leaves behind. A run is a list of actions of one session: calls of
`execute_session` and of `Database::checkpoint`.
-/

namespace MoodengSQL

open Std

/-- The files of a data directory. The `.dat` files of all tables are listed by
their paths, also those outside the directory. -/
structure Disk where
  walLog : List WalEntry
  checkpointBin : Option (FileImage Nat)
  datFiles : Map String (FileImage TableData)
  metaBin : Option (FileImage DatabaseSnapshot)

/-- A fresh data directory. -/
def Disk.fresh : Disk := { walLog := [], checkpointBin := none, datFiles := ∅, metaBin := none }

/-- The files behind a running database: what a crash leaves when everything
written has reached the disk. -/
def Database.disk (db : Database) : Disk :=
  { walLog := db.storage.wal.file
    checkpointBin := db.storage.wal.checkpointFile
    datFiles := db.storage.datFiles
    metaBin := db.metaFile }

/-- `backup`: the files of the data directory itself are archived. -/
def Disk.archived (disk : Disk) : Disk :=
  { disk with datFiles := disk.datFiles.filter fun path _ => isEntry path }

/-- `MetaStore::load`. -/
def loadSnapshot : Option (FileImage DatabaseSnapshot) → Option DatabaseSnapshot
  | some (.written snapshot) => some snapshot
  | some .truncated => none
  | none => none

section Engine

variable [Runtime]

/-- The index loop of `rebuild_all` for one table. -/
def rebuildIndexes (table : String) (colNames : List String) (rows : List (Nat × Row)) :
    List IndexMeta → IndexManager → Except Failure IndexManager
  | [], manager => .ok manager
  | definition :: rest, manager => do
      let index ← buildIndex colNames
        (.new definition.name definition.columns definition.unique) rows
      let manager ← manager.createIndex table index
      rebuildIndexes table colNames rows rest manager

/-- The table loop of `rebuild_all`. -/
def rebuildTables (catalog : Catalog) (storage : StorageEngine) :
    List String → IndexManager → Except Failure IndexManager
  | [], manager => .ok manager
  | table :: rest, manager => do
      let schema ← catalog.getTable table
      let manager ←
        rebuildIndexes table schema.colNames (storage.scan table) schema.indexes manager
      rebuildTables catalog storage rest manager

/-- `IndexManager::rebuild_all`: the indexes built anew from the stored rows. -/
def rebuildAll (catalog : Catalog) (storage : StorageEngine) : Except Failure IndexManager :=
  rebuildTables catalog storage catalog.listTables ∅

/-- `Database::open`. The log is opened first, then the table files, then the
catalog; the log is replayed over the tables and the indexes are rebuilt. -/
def Database.open (disk : Disk) : Except Failure Database := do
  let storage := StorageEngine.open (.open disk.walLog disk.checkpointBin) disk.datFiles
  let catalog := match loadSnapshot disk.metaBin with
    | some snapshot => Catalog.loadTables ∅ snapshot.tables
    | none => ∅
  let storage := catalog.listTables.foldl StorageEngine.ensureTable storage
  let (replayed, storage) := replayWal storage
  let _ ← replayed
  let indexes ← rebuildAll catalog storage
  .ok { catalog, storage, indexes, activeWriteTxns := 0, metaFile := disk.metaBin }

/-- `Database::persist`. -/
def persist : ExecM Unit :=
  modify fun s =>
    { s with metaFile := some (.written { tables := s.catalog.snapshot, indexes := s.indexes }) }

/-- `Database::execute_session`, on the statements the text parses to. -/
def executeSession (statements : List Statement) : ExecM QueryResult := do
  let result ← execute statements
  if result.metaChanged then persist
  return result

/-- `Database::execute_session` on a text that parses to statements or not. -/
def executeText (text : Except Failure (List Statement)) : ExecM QueryResult := do
  let statements ← ExecM.lift text
  executeSession statements

/-- `Database::checkpoint`. -/
def checkpointDatabase : ExecM Unit := do
  modify fun s => { s with storage := s.storage.checkpoint }
  persist

end Engine

/-- Open a data directory and start a session on it. -/
def Executor.start [Runtime] (disk : Disk) : Except Failure Executor :=
  (Database.open disk).map fun db => { db with session := .new }

end MoodengSQL
