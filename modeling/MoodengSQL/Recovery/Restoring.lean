import MoodengSQL.Recovery.Stored

/-!
# Restoring into a directory in use

The files of a backup are written over those of another directory, which keeps the
others. A table that the source holds in memory comes without a `.pages` file, so that
one left in the target is opened in its place.
-/

namespace MoodengSQL

open Foundation Foundation.Effect Std

section Keys

variable {columnNames : List String}

theorem buildIndex_definition {index index' : BTreeIndex} {rows : List (Nat × Row)}
    (built : buildIndex columnNames index rows = .ok index') :
    index'.definition = index.definition := by
  induction rows generalizing index with
  | nil =>
      cases built
      rfl
  | cons entry rest ih =>
      obtain ⟨next, inserted, later⟩ := except_bind_eq_ok.mp built
      exact (ih later).trans (BTreeIndex.insert_eq_ok inserted).1

/-- An index is built exactly when its keys are free and, if it is unique, differ. -/
theorem buildIndex_isOk_iff (index : BTreeIndex) (rows : List (Nat × Row)) :
    (∃ index', buildIndex columnNames index rows = .ok index') ↔ (index.unique →
      (rows.map fun entry => index.keyOf columnNames entry.2.values).Nodup ∧
        ∀ entry ∈ rows, index.ids (index.keyOf columnNames entry.2.values) = []) := by
  induction rows generalizing index with
  | nil => exact iff_of_true ⟨index, rfl⟩ fun _ => ⟨List.nodup_nil, nofun⟩
  | cons first rest ih =>
      obtain ⟨rowId, row⟩ := first
      have keyOf : ∀ {next : BTreeIndex}, next.definition = index.definition →
          next.keyOf columnNames = index.keyOf columnNames := fun same =>
        IndexExact.keyOf_eq_of_definition same
      constructor
      · rintro ⟨index', built⟩ unique
        obtain ⟨next, inserted, later⟩ := except_bind_eq_ok.mp built
        obtain ⟨same, free, ids⟩ := BTreeIndex.insert_eq_ok inserted
        change ∀ key, next.ids key = if key = index.keyOf columnNames row.values then _ else _
          at ids
        obtain ⟨nodup, empty⟩ := (ih next).mp ⟨index', later⟩
          ((congrArg IndexMeta.unique same).trans unique)
        rw [keyOf same] at nodup empty
        have apart : ∀ entry ∈ rest, index.keyOf columnNames entry.2.values ≠
            index.keyOf columnNames row.values := by
          intro entry member here
          have taken := empty entry member
          rw [here, ids, if_pos rfl] at taken
          exact List.append_ne_nil_of_right_ne_nil _ (List.cons_ne_nil _ _) taken
        refine ⟨List.nodup_cons.mpr ⟨fun listed => ?_, nodup⟩, fun entry member => ?_⟩
        · obtain ⟨entry, member, here⟩ := List.mem_map.mp listed
          exact apart entry member here
        · rcases List.mem_cons.mp member with rfl | member
          · exact free unique
          · have untaken := empty entry member
            rwa [ids, if_neg (apart entry member)] at untaken
      · intro differ
        have free : index.unique → index.ids (index.keyOf columnNames row.values) = [] :=
          fun unique => (differ unique).2 _ List.mem_cons_self
        obtain ⟨next, inserted⟩ := BTreeIndex.insert_accepts rowId free
        obtain ⟨same, -, ids⟩ := BTreeIndex.insert_eq_ok inserted
        change ∀ key, next.ids key = if key = index.keyOf columnNames row.values then _ else _
          at ids
        obtain ⟨index', later⟩ := (ih next).mpr fun unique => by
          obtain ⟨nodup, empty⟩ := differ ((congrArg IndexMeta.unique same).symm.trans unique)
          obtain ⟨fresh, nodup⟩ := List.nodup_cons.mp nodup
          rw [keyOf same]
          refine ⟨nodup, fun entry member => ?_⟩
          have apart : index.keyOf columnNames entry.2.values ≠
              index.keyOf columnNames row.values := fun here =>
            fresh (List.mem_map.mpr ⟨entry, member, here⟩)
          exact (ids _).trans ((if_neg apart).trans (empty entry (List.mem_cons_of_mem _ member)))
        exact ⟨index', except_bind_eq_ok.mpr ⟨next, inserted, later⟩⟩

/-- The index of the definition can be built from the rows. -/
def Builds (columnNames : List String) (definition : IndexMeta) (rows : List (Nat × Row)) : Prop :=
  ∃ index, buildIndex columnNames
    (.new definition.name definition.columns definition.unique) rows = .ok index

/-- The keys of rows under an index definition. -/
def IndexMeta.keys (definition : IndexMeta) (columnNames : List String)
    (rows : List (Nat × List Value)) : List IndexKey :=
  rows.map fun row => .ofValues (keyValues definition.columns row.2 columnNames)

theorem builds_iff (definition : IndexMeta) (rows : List (Nat × Row)) :
    Builds columnNames definition rows ↔
      (definition.unique → (definition.keys columnNames (idsAndValues rows)).Nodup) := by
  rw [Builds, buildIndex_isOk_iff, IndexMeta.keys, idsAndValues, List.map_map]
  exact imp_congr_right fun _ => and_iff_left fun _ _ => BTreeIndex.ids_new _ _ _ _

/-- Indexes of different names are built exactly when each can be, and those of other tables
are left alone. -/
theorem rebuildIndexes_isOk_iff {table : String} {rows : List (Nat × Row)}
    {definitions : List IndexMeta} {manager : IndexManager}
    (distinct : (definitions.map IndexMeta.name).Nodup)
    (absent : ∀ definition ∈ definitions, manager.index? table definition.name = none) :
    ((∃ manager', rebuildIndexes table columnNames rows definitions manager = .ok manager') ↔
      ∀ definition ∈ definitions, Builds columnNames definition rows) ∧
      ∀ manager', rebuildIndexes table columnNames rows definitions manager = .ok manager' →
        ∀ other name, other ≠ table → manager'.index? other name = manager.index? other name := by
  induction definitions generalizing manager with
  | nil =>
      refine ⟨iff_of_true ⟨manager, rfl⟩ nofun, ?_⟩
      rintro manager' ran other name -
      cases ran
      rfl
  | cons first rest ih =>
      obtain ⟨fresh, distinct⟩ := List.nodup_cons.mp distinct
      have later : ∀ {index : BTreeIndex} {next : IndexManager}, index.name = first.name →
          manager.createIndex table index = .ok next →
          ∀ definition ∈ rest, next.index? table definition.name = none := by
        intro index next named created definition member
        have differ : definition.name ≠ first.name := fun same =>
          fresh (List.mem_map.mpr ⟨definition, member, same⟩)
        rw [createIndex_eq_ok created, named, if_neg fun same => differ same.2]
        exact absent definition (List.mem_cons_of_mem _ member)
      have named : ∀ {index : BTreeIndex}, buildIndex columnNames
          (.new first.name first.columns first.unique) rows = .ok index →
          index.name = first.name := fun built =>
        congrArg IndexMeta.name (buildIndex_definition built)
      have steps : ∀ manager', rebuildIndexes table columnNames rows (first :: rest) manager =
          .ok manager' ↔ ∃ index, buildIndex columnNames
            (.new first.name first.columns first.unique) rows = .ok index ∧
            ∃ next, manager.createIndex table index = .ok next ∧
              rebuildIndexes table columnNames rows rest next = .ok manager' := by
        intro manager'
        rw [rebuildIndexes, except_bind_eq_ok]
        exact exists_congr fun index => and_congr_right fun _ => except_bind_eq_ok
      refine ⟨⟨?_, fun builds => ?_⟩, fun manager' ran other name elsewhere => ?_⟩
      · rintro ⟨manager', ran⟩ definition member
        obtain ⟨index, built, next, created, rebuilt⟩ := (steps manager').mp ran
        rcases List.mem_cons.mp member with rfl | member
        · exact ⟨index, built⟩
        · exact (ih distinct (later (named built) created)).1.mp ⟨manager', rebuilt⟩ definition
            member
      · obtain ⟨index, built⟩ := builds first List.mem_cons_self
        have free : manager.index? table index.name = none := by
          rw [named built]
          exact absent first List.mem_cons_self
        obtain ⟨next, created⟩ := createIndex_accepts free
        obtain ⟨manager', rebuilt⟩ := (ih distinct (later (named built) created)).1.mpr
          fun definition member => builds definition (List.mem_cons_of_mem _ member)
        exact ⟨manager', (steps manager').mpr ⟨index, built, next, created, rebuilt⟩⟩
      · obtain ⟨index, built, next, created, rebuilt⟩ := (steps manager').mp ran
        rw [(ih distinct (later (named built) created)).2 manager' rebuilt other name elsewhere,
          createIndex_eq_ok created, if_neg fun same => elsewhere same.1]

variable [Runtime] {codec : PageCodec} {catalog : Catalog} {tables : Map String TableBackend}

private theorem rebuildEach_isOk_iff (names : NamesDiffer catalog) {listed : List String}
    {manager : IndexManager} (distinct : listed.Nodup) (known : ∀ table ∈ listed, table ∈ catalog)
    (absent : ∀ table ∈ listed, ∀ name, manager.index? table name = none) :
    (∃ manager', rebuildBackends codec catalog tables listed manager = .ok manager') ↔
      ∀ table ∈ listed, ∀ schema, catalog[table]? = some schema →
        ∀ definition ∈ schema.indexes, ∃ rows, scanBackend codec tables table = .ok rows ∧
          Builds schema.colNames definition rows := by
  induction listed generalizing manager with
  | nil => exact iff_of_true ⟨manager, rfl⟩ nofun
  | cons first rest ih =>
      obtain ⟨fresh, distinct⟩ := List.nodup_cons.mp distinct
      obtain ⟨schema, found⟩ := Option.isSome_iff_exists.mp
        (ExtTreeMap.isSome_getElem?_iff_mem.mpr (known first List.mem_cons_self))
      have steps : ∀ manager', rebuildBackends codec catalog tables (first :: rest) manager =
          .ok manager' ↔ ∃ rows, (if schema.indexes = [] then .ok [] else
              scanBackend codec tables first) = .ok rows ∧
            ∃ next, rebuildIndexes first schema.colNames rows schema.indexes manager = .ok next ∧
              rebuildBackends codec catalog tables rest next = .ok manager' := by
        intro manager'
        rw [rebuildBackends, getTable_eq_ok.mpr found, except_bind_eq_ok]
        simp only [Except.ok.injEq, exists_eq_left']
        split
        · simp only [except_bind_eq_ok]
        · simp only [except_bind_eq_ok]
      have here (rows : List (Nat × Row)) :=
        @rebuildIndexes_isOk_iff schema.colNames first rows schema.indexes manager (names found)
          fun definition _ => absent first List.mem_cons_self definition.name
      have later : ∀ {rows : List (Nat × Row)} {next : IndexManager},
          rebuildIndexes first schema.colNames rows schema.indexes manager = .ok next →
          ∀ table ∈ rest, ∀ name, next.index? table name = none := by
        intro rows next ran table member name
        have elsewhere : table ≠ first := fun same => fresh (same ▸ member)
        rw [(here rows).2 next ran table name elsewhere]
        exact absent table (List.mem_cons_of_mem _ member) name
      have known' : ∀ table ∈ rest, table ∈ catalog := fun table member =>
        known table (List.mem_cons_of_mem _ member)
      constructor
      · rintro ⟨manager', ran⟩ table member schema' found' definition defined
        obtain ⟨rows, scanned, next, indexed, rebuilt⟩ := (steps manager').mp ran
        rcases List.mem_cons.mp member with rfl | member
        · cases found.symm.trans found'
          rw [if_neg (List.ne_nil_of_mem defined)] at scanned
          exact ⟨rows, scanned, (here rows).1.mp ⟨next, indexed⟩ definition defined⟩
        · exact (ih distinct known' (later indexed)).mp ⟨manager', rebuilt⟩ table member schema'
            found' definition defined
      · intro builds
        obtain ⟨rows, scanned, each⟩ : ∃ rows, (if schema.indexes = [] then .ok [] else
            scanBackend codec tables first) = .ok rows ∧
            ∀ definition ∈ schema.indexes, Builds schema.colNames definition rows := by
          by_cases none : schema.indexes = []
          · refine ⟨[], if_pos none, fun definition defined => ?_⟩
            rw [none] at defined
            cases defined
          · obtain ⟨definition, defined⟩ := List.exists_mem_of_ne_nil _ none
            obtain ⟨rows, scanned, -⟩ :=
              builds first List.mem_cons_self schema found definition defined
            refine ⟨rows, (if_neg none).trans scanned, fun other defined => ?_⟩
            obtain ⟨rows', scanned', built⟩ :=
              builds first List.mem_cons_self schema found other defined
            cases scanned.symm.trans scanned'
            exact built
        obtain ⟨next, indexed⟩ := (here rows).1.mpr each
        obtain ⟨manager', rebuilt⟩ := (ih distinct known' (later indexed)).mpr
          fun table member => builds table (List.mem_cons_of_mem _ member)
        exact ⟨manager', (steps manager').mpr ⟨rows, scanned, next, indexed, rebuilt⟩⟩

/-- **The indexes are rebuilt** exactly when every table with an index can be scanned and
every index built from its rows. -/
theorem rebuildBackends_isOk_iff (names : NamesDiffer catalog) :
    (∃ manager, rebuildBackends codec catalog tables catalog.listTables ∅ = .ok manager) ↔
      ∀ ⦃table : String⦄ ⦃schema : TableSchema⦄, catalog[table]? = some schema →
        ∀ definition ∈ schema.indexes, ∃ rows, scanBackend codec tables table = .ok rows ∧
          Builds schema.colNames definition rows := by
  have listed (table : String) : table ∈ catalog.listTables ↔ table ∈ catalog :=
    ExtTreeMap.mem_keys
  refine (rebuildEach_isOk_iff names ExtTreeMap.nodup_keys (fun table => (listed table).mp)
    fun table _ name => by simp [IndexManager.index?]).trans ?_
  exact ⟨fun builds table schema found => builds table ((listed table).mpr
    (Map.mem_of_getElem?_eq_some found)) schema found,
    fun builds table _ schema found => builds found⟩

end Keys

section Archive

variable [Runtime] {codec : PageCodec} {db : StoredDatabase} {archive : Directory}

/-- The files of a backup: the log is empty, the catalog is saved, and every table has its
file. -/
structure StoredDatabase.Archives (codec : PageCodec) (db : StoredDatabase)
    (archive : Directory) : Prop where
  log : archive.walLog = []
  catalog : ∃ image, archive.metaBin = some image ∧ diskCatalog (some image) = db.catalog
  paged : ∀ ⦃table : String⦄ ⦃pt : PageTable⦄, db.tables[table]? = some (.paged pt) →
    ∃ (pt' : PageTable) (bytes : List UInt8), archive.pages[table]? = some bytes ∧
      pt'.file = some bytes ∧ TableBackend.SameRows codec (.paged pt) (.paged pt')
  memory : ∀ ⦃table : String⦄ ⦃data : TableData⦄, db.tables[table]? = some (.memory data) →
    archive.pages[table]? = none ∧ archive.dat[table]? = some (.ok data)
  absent : ∀ ⦃table : String⦄, db.tables[table]? = none →
    archive.pages[table]? = none ∧ archive.dat[table]? = none

/-- **A live backup** returns once no write transaction is counted as open, and archives
every table. -/
theorem StoredDatabase.Sound.backupLive (sound : db.Sound codec) :
    ∃ archive, db.Archives codec archive ∧ ∀ result, db.backupLive = some result ↔
      db.activeWriteTxns = 0 ∧ result = .ok archive := by
  obtain ⟨saved, ran, persists⟩ := sound.checkpointStorage
  have checkpoint : db.checkpoint = .ok (StoredDatabase.persist
      { saved with wal := (saved.wal.markCheckpoint saved.wal.lsn).truncate }) := by
    simp only [StoredDatabase.checkpoint, ran]
    rfl
  have catalog : saved.catalog = db.catalog := by rw [persists.frame]
  have pages (table : String) : (StoredDatabase.directory (StoredDatabase.persist
      { saved with wal := (saved.wal.markCheckpoint saved.wal.lsn).truncate })).pages[table]? =
        saved.tables[table]?.bind TableBackend.pagesFile := ExtTreeMap.getElem?_filterMap'
  refine ⟨StoredDatabase.directory (StoredDatabase.persist
    { saved with wal := (saved.wal.markCheckpoint saved.wal.lsn).truncate }),
    ⟨rfl, ⟨_, rfl, ?_⟩, fun table pt found => ?_, fun table data found => ?_,
      fun table missing => ?_⟩, fun result => ?_⟩
  · rw [← catalog]
    exact loadTables_snapshot (catalog ▸ sound.named)
  · obtain ⟨after, found', same⟩ := persists.present found
    cases same with
    | @paged pt pt' kept same =>
        obtain ⟨bytes, file⟩ := kept.file
        refine ⟨pt', bytes, ?_, file, .paged kept same⟩
        rw [pages, found']
        exact file
  · obtain ⟨after, found', same⟩ := persists.present found
    cases same
    refine ⟨?_, persists.saved found (Map.mem_of_getElem?_eq_some found)⟩
    rw [pages, found']
    rfl
  · have unsaved : table ∉ db.dat := fun member => by
      have known := sound.known table member
      rw [← ExtTreeMap.isSome_getElem?_iff_mem, missing] at known
      cases known
    refine ⟨?_, ?_⟩
    · rw [pages, persists.absent missing]
      rfl
    · refine (persists.kept table fun data found => ?_).trans (ExtTreeMap.getElem?_eq_none unsaved)
      cases missing.symm.trans found
  · rw [StoredDatabase.backupLive, checkpoint]
    unfold waitForWriteTxns
    by_cases idle : db.activeWriteTxns = 0
    · simp [idle, Except.map, eq_comm]
    · simp [idle]

end Archive

section Restoring

variable [Runtime] {codec : PageCodec} {db : StoredDatabase} {archive target : Directory}

/-- A live backup returns, and its archive, restored into a directory, opens there under
the same options with the catalog of the database and the row ids and values of every
table. -/
def StoredDatabase.RestoresInto (codec : PageCodec) (db : StoredDatabase) (target : Directory) :
    Prop :=
  ∃ archive restored, db.backupLive = some (.ok archive) ∧
    StoredDatabase.open codec db.options (archive.restoreInto target) = .ok restored ∧
    restored.catalog = db.catalog ∧
    ∀ table ∈ db.catalog, restored.rows codec table = db.rows codec table

/-- No write transaction is counted as open; the rows of every table differ in the keys of
its unique indexes; a `.pages` file that the target has for a table in memory gives the
rows of that table; and the target's files of other tables load. -/
structure StoredDatabase.RestorableInto (codec : PageCodec) (db : StoredDatabase)
    (target : Directory) : Prop where
  idle : db.activeWriteTxns = 0
  keys : ∀ ⦃table : String⦄ ⦃schema : TableSchema⦄, db.catalog[table]? = some schema →
    ∀ definition ∈ schema.indexes, definition.unique → ∀ rows, db.rows codec table = .ok rows →
      (definition.keys schema.colNames rows).Nodup
  pages : ∀ table ∈ db.catalog, ∀ data, db.tables[table]? = some (.memory data) →
    table ∈ target.pages → ∃ backend, target.loadTable codec db.options table = .ok backend ∧
      backend.rows codec = (TableBackend.memory data).rows codec
  others : ∀ stem, stem ∉ db.tables →
    ∃ backend, target.loadTable codec db.options stem = .ok backend

/-- Opening with an empty log replays nothing. -/
theorem StoredDatabase.open_eq_ok {options : StorageOptions} {dir : Directory}
    {restored : StoredDatabase} (log : dir.walLog = []) :
    StoredDatabase.open codec options dir = .ok restored ↔
      ∃ loaded, StoredDatabase.load codec options dir = .ok loaded ∧
        ∃ indexes, rebuildBackends codec loaded.catalog loaded.tables loaded.catalog.listTables ∅ =
          .ok indexes ∧ restored = { loaded with indexes } := by
  have replays : ∀ loaded : StoredDatabase, StoredDatabase.load codec options dir = .ok loaded →
      replayBackends codec options loaded.tables
        (loaded.wal.replaySince loaded.wal.checkpointLsn) = .ok loaded.tables := by
    intro loaded ran
    obtain ⟨tables, -, rfl⟩ := StoredDatabase.load_eq_ok.mp ran
    have none : (Runtime.hashOrder.order "replay_wal" ([] : List TxnState)) = [] :=
      List.perm_nil.mp (Runtime.hashOrder.perm "replay_wal" [])
    simp only [WriteAheadLog.replaySince, WriteAheadLog.open, log, List.filter_nil, replayBackends,
      List.foldl_nil]
    change List.foldlM _ _ (sortByLsn (collectCommitted (Runtime.hashOrder.order "replay_wal"
      ([] : List TxnState)))) = _
    rw [none]
    rfl
  rw [StoredDatabase.open, except_bind_eq_ok]
  refine exists_congr fun loaded => and_congr_right fun ran => ?_
  rw [replays loaded ran, except_bind_eq_ok]
  simp only [Except.ok.injEq, exists_eq_left', except_bind_eq_ok]
  exact exists_congr fun indexes => and_congr_right fun _ =>
    ⟨fun same => (Except.ok.inj same).symm, fun same => congrArg Except.ok same.symm⟩

omit [Runtime] in
theorem Directory.getElem?_pages_restoreInto (archive target : Directory) (table : String) :
    (archive.restoreInto target).pages[table]? =
      archive.pages[table]?.or target.pages[table]? := ExtTreeMap.getElem?_union

omit [Runtime] in
theorem Directory.getElem?_dat_restoreInto (archive target : Directory) (table : String) :
    (archive.restoreInto target).dat[table]? = archive.dat[table]?.or target.dat[table]? :=
  ExtTreeMap.getElem?_union

namespace StoredDatabase.Archives

variable {table : String}

/-- A table that the source does not have is the target's. -/
theorem loadTable_absent (archives : db.Archives codec archive)
    (missing : db.tables[table]? = none) :
    (archive.restoreInto target).loadTable codec db.options table =
      target.loadTable codec db.options table := by
  obtain ⟨pages, dat⟩ := archives.absent missing
  apply Directory.loadTable_congr
  · rw [Directory.getElem?_pages_restoreInto, pages, Option.none_or]
  · rw [Directory.getElem?_dat_restoreInto, dat, Option.none_or]

/-- Every table of the source has a file in the restored directory. -/
theorem hasFile (archives : db.Archives codec archive) (known : table ∈ db.tables) :
    (archive.restoreInto target).HasFile table := by
  obtain ⟨backend, found⟩ := Option.isSome_iff_exists.mp
    (ExtTreeMap.isSome_getElem?_iff_mem.mpr known)
  cases backend with
  | paged pt =>
      obtain ⟨_, bytes, archived, -⟩ := archives.paged found
      refine .inr (ExtTreeMap.isSome_getElem?_iff_mem.mp ?_)
      rw [Directory.getElem?_pages_restoreInto, archived]
      rfl
  | memory data =>
      obtain ⟨-, saved⟩ := archives.memory found
      refine .inl (ExtTreeMap.isSome_getElem?_iff_mem.mp ?_)
      rw [Directory.getElem?_dat_restoreInto, saved]
      rfl

/-- A table in pages is opened from the archived file. -/
theorem loadTable_paged (archives : db.Archives codec archive) {pt : PageTable}
    (found : db.tables[table]? = some (.paged pt)) :
    ∃ backend, (archive.restoreInto target).loadTable codec db.options table = .ok backend ∧
      backend.rows codec = (TableBackend.paged pt).rows codec := by
  obtain ⟨pt', bytes, archived, file, same⟩ := archives.paged found
  have pages : (archive.restoreInto target).pages[table]? = some bytes := by
    rw [Directory.getElem?_pages_restoreInto, archived, Option.some_or]
  refine ⟨_, Directory.loadTable_pages pages, congrArg (Except.map idsAndValues) ?_⟩
  cases same with
  | paged kept same => exact file ▸ (kept.reopen _ _).2.trans same

/-- A table in memory is read from the archived file, unless the target has pages for it. -/
theorem loadTable_memory (archives : db.Archives codec archive) (sound : db.Sound codec)
    {data : TableData} (found : db.tables[table]? = some (.memory data)) :
    (archive.restoreInto target).loadTable codec db.options table =
      if table ∈ target.pages then target.loadTable codec db.options table
      else .ok (.memory data) := by
  obtain ⟨none, saved⟩ := archives.memory found
  have dat : (archive.restoreInto target).dat[table]? = some (.ok data) := by
    rw [Directory.getElem?_dat_restoreInto, saved, Option.some_or]
  have pages : (archive.restoreInto target).pages[table]? = target.pages[table]? := by
    rw [Directory.getElem?_pages_restoreInto, none, Option.none_or]
  split
  · rename_i member
    obtain ⟨bytes, found⟩ := Option.isSome_iff_exists.mp
      (ExtTreeMap.isSome_getElem?_iff_mem.mpr member)
    rw [Directory.loadTable_pages (pages.trans found), Directory.loadTable_pages found]
  · rename_i absent
    exact Directory.loadTable_dat (sound.inMemory found)
      (pages.trans (ExtTreeMap.getElem?_eq_none absent)) dat

theorem log_restored (archives : db.Archives codec archive) :
    (archive.restoreInto target).walLog = [] := archives.log

/-- The catalog of the restored directory is the source's. -/
theorem catalog_restored (archives : db.Archives codec archive) :
    diskCatalog (archive.restoreInto target).metaBin = db.catalog := by
  obtain ⟨image, written, same⟩ := archives.catalog
  change diskCatalog (archive.metaBin.or target.metaBin) = _
  rw [written]
  exact same

/-- **A restored directory that opens** has loaded every table, and each index was built
from the rows. -/
theorem opened (archives : db.Archives codec archive) (sound : db.Sound codec)
    {restored : StoredDatabase}
    (opens : StoredDatabase.open codec db.options (archive.restoreInto target) = .ok restored) :
    restored.catalog = db.catalog ∧
      (∀ stem, ∃ backend,
        (archive.restoreInto target).loadTable codec db.options stem = .ok backend) ∧
      (∀ table ∈ db.tables, ∀ backend,
        (archive.restoreInto target).loadTable codec db.options table = .ok backend →
          restored.tables[table]? = some backend) ∧
      ∀ ⦃table : String⦄ ⦃schema : TableSchema⦄, db.catalog[table]? = some schema →
        ∀ definition ∈ schema.indexes, ∃ rows,
          scanBackend codec restored.tables table = .ok rows ∧
            Builds schema.colNames definition rows := by
  obtain ⟨loaded, load, indexes, rebuilt, rfl⟩ :=
    (StoredDatabase.open_eq_ok archives.log_restored).mp opens
  obtain ⟨tables, all, rfl⟩ := StoredDatabase.load_eq_ok.mp load
  obtain ⟨present, -⟩ := Directory.loadAll_ok all
  refine ⟨archives.catalog_restored, fun stem => ?_, fun table known backend loads => ?_, ?_⟩
  · by_cases has : (archive.restoreInto target).HasFile stem
    · exact (present stem has).imp fun _ => And.left
    · obtain ⟨dat, pages⟩ := not_or.mp has
      exact ⟨_, Directory.loadTable_absent (ExtTreeMap.getElem?_eq_none pages)
        (ExtTreeMap.getElem?_eq_none dat)⟩
  · obtain ⟨other, loads', found⟩ := present table (archives.hasFile known)
    cases loads.symm.trans loads'
    dsimp only
    rw [getElem?_ensureBackends, found, Option.some_or]
  · simp only [archives.catalog_restored] at rebuilt ⊢
    exact (rebuildBackends_isOk_iff sound.namesDiffer).mp ⟨indexes, rebuilt⟩

/-- A restored directory opens if every table loads and each index can be built from the
rows. -/
theorem opens (archives : db.Archives codec archive) (sound : db.Sound codec)
    (loads : ∀ stem, ∃ backend,
      (archive.restoreInto target).loadTable codec db.options stem = .ok backend)
    (builds : ∀ ⦃table : String⦄ ⦃schema : TableSchema⦄, db.catalog[table]? = some schema →
      ∀ definition ∈ schema.indexes, ∃ backend rows,
        (archive.restoreInto target).loadTable codec db.options table = .ok backend ∧
          backend.scan codec = .ok rows ∧ Builds schema.colNames definition rows) :
    ∃ restored,
      StoredDatabase.open codec db.options (archive.restoreInto target) = .ok restored := by
  obtain ⟨tables, all⟩ := Directory.loadAll_accepts fun stem _ => loads stem
  obtain ⟨present, -⟩ := Directory.loadAll_ok all
  obtain ⟨indexes, rebuilt⟩ : ∃ indexes, rebuildBackends codec db.catalog
      (db.catalog.listTables.foldl (ensureBackend db.options) tables) db.catalog.listTables ∅ =
        .ok indexes := by
    refine (rebuildBackends_isOk_iff sound.namesDiffer).mpr
      fun table schema known definition defined => ?_
    obtain ⟨backend, rows, loaded, scanned, built⟩ := builds known definition defined
    obtain ⟨other, loaded', found⟩ := present table
      (archives.hasFile (sound.backed table (Map.mem_of_getElem?_eq_some known)))
    cases loaded.symm.trans loaded'
    refine ⟨rows, ?_, built⟩
    rw [scanBackend, getElem?_ensureBackends, found, Option.some_or]
    exact scanned
  refine ⟨_, (StoredDatabase.open_eq_ok archives.log_restored).mpr
    ⟨_, StoredDatabase.load_eq_ok.mpr ⟨tables, all, rfl⟩, indexes, ?_, rfl⟩⟩
  simp only [archives.catalog_restored]
  exact rebuilt

end StoredDatabase.Archives

/-- The rows that an index is built from are those that the database shows. -/
theorem TableBackend.scan_of_rows {backend : TableBackend} {values : List (Nat × List Value)}
    (read : backend.rows codec = .ok values) :
    ∃ rows, backend.scan codec = .ok rows ∧ values = idsAndValues rows := by
  unfold TableBackend.rows at read
  cases scan : backend.scan codec with
  | error e =>
      rw [scan] at read
      cases read
  | ok rows =>
      rw [scan] at read
      exact ⟨rows, rfl, (Except.ok.inj read).symm⟩

namespace StoredDatabase

theorem rows_eq {table : String} {backend : TableBackend}
    (found : db.tables[table]? = some backend) : db.rows codec table = backend.rows codec := by
  simp only [StoredDatabase.rows, scanBackend, found, TableBackend.rows]

theorem Sound.rows (sound : db.Sound codec) {table : String} (known : table ∈ db.tables) :
    ∃ rows, db.rows codec table = .ok rows := by
  obtain ⟨backend, found⟩ := Option.isSome_iff_exists.mp
    (ExtTreeMap.isSome_getElem?_iff_mem.mpr known)
  cases backend with
  | memory data => exact ⟨_, rows_eq found⟩
  | paged pt =>
      obtain ⟨rows, scanned⟩ := (sound.inPages found).scan
      refine ⟨idsAndValues rows, (rows_eq found).trans ?_⟩
      simp only [TableBackend.rows, TableBackend.scan, scanned, Except.map]

/-- A database whose tables agree with their files restores into a directory exactly when
it is restorable into it. -/
theorem Sound.restoresInto_iff (sound : db.Sound codec) (target : Directory) :
    db.RestoresInto codec target ↔ db.RestorableInto codec target := by
  obtain ⟨archive, archives, backup⟩ := sound.backupLive
  constructor
  · rintro ⟨_, restored, ran, opens, -, rows⟩
    obtain ⟨idle, same⟩ := (backup _).mp ran
    cases same
    obtain ⟨-, loads, found, built⟩ := archives.opened sound opens
    refine ⟨idle, fun table schema known definition defined unique values read => ?_,
      fun table known data inMemory member => ?_, fun stem missing => ?_⟩
    · obtain ⟨scanned, scan, builds⟩ := built known definition defined
      have same := rows table (Map.mem_of_getElem?_eq_some known)
      rw [read, StoredDatabase.rows, scan] at same
      cases same
      exact (builds_iff definition scanned).mp builds unique
    · obtain ⟨backend, loaded⟩ := loads table
      have load := archives.loadTable_memory sound inMemory ▸ loaded
      rw [if_pos member] at load
      have same := rows table known
      rw [rows_eq inMemory, rows_eq (found table (sound.backed table known) backend loaded)] at same
      exact ⟨backend, load, same⟩
    · rw [← archives.loadTable_absent (ExtTreeMap.getElem?_eq_none missing)]
      exact loads stem
  · rintro ⟨idle, keys, pages, others⟩
    have loads : ∀ stem, ∃ backend,
        (archive.restoreInto target).loadTable codec db.options stem = .ok backend ∧
          (stem ∈ db.catalog → backend.rows codec = db.rows codec stem) := by
      intro stem
      cases found : db.tables[stem]? with
      | none =>
          have missing : stem ∉ db.tables := fun member => by
            rw [← ExtTreeMap.isSome_getElem?_iff_mem, found] at member
            cases member
          rw [archives.loadTable_absent found]
          exact (others stem missing).imp fun backend loaded =>
            ⟨loaded, fun known => absurd (sound.backed stem known) missing⟩
      | some backend =>
          rw [rows_eq found]
          cases backend with
          | paged pt =>
              exact (archives.loadTable_paged found).imp fun backend loaded =>
                ⟨loaded.1, fun _ => loaded.2⟩
          | memory data =>
              rw [archives.loadTable_memory sound found]
              split
              · rename_i member
                by_cases known : stem ∈ db.catalog
                · exact (pages stem known data found member).imp fun backend loaded =>
                    ⟨loaded.1, fun _ => loaded.2⟩
                · obtain ⟨bytes, found⟩ := Option.isSome_iff_exists.mp
                    (ExtTreeMap.isSome_getElem?_iff_mem.mpr member)
                  exact ⟨_, Directory.loadTable_pages found, fun listed => absurd listed known⟩
              · exact ⟨_, rfl, fun _ => rfl⟩
    obtain ⟨restored, opens⟩ := archives.opens sound
      (fun stem => (loads stem).imp fun _ => And.left)
      fun table schema known definition defined => by
        have member := Map.mem_of_getElem?_eq_some known
        obtain ⟨values, read⟩ := sound.rows (sound.backed table member)
        obtain ⟨backend, loaded, same⟩ := loads table
        obtain ⟨rows, scanned, rfl⟩ := TableBackend.scan_of_rows ((same member).trans read)
        exact ⟨backend, rows, loaded, scanned, (builds_iff definition rows).mpr fun unique =>
          keys known definition defined unique _ read⟩
    obtain ⟨catalog, -, found, -⟩ := archives.opened sound opens
    refine ⟨archive, restored, (backup _).mpr ⟨idle, rfl⟩, opens, catalog, fun table known => ?_⟩
    obtain ⟨backend, loaded, same⟩ := loads table
    rw [rows_eq (found table (sound.backed table known) backend loaded), same known]

end StoredDatabase

/-- **A backup restores into a directory in use exactly when nothing there hides a table.**
Whatever log, checkpoint, catalog and tables are in the target, restoring a live backup and
opening under the same options give the catalog and the rows of the source if and only if
no write transaction is counted as open, the rows differ in the keys of the unique indexes,
no `.pages` file of the target stands for a table in memory with other rows, and the
target's other tables load. The source is any database that is reached from a directory
whose `.pages` files are those of tables, or by the calls of a session, and its tables have
the names of files. -/
theorem restores_into_iff (codec : PageCodec) :
    (∀ db : StoredDatabase, db.Sound codec → ∀ target,
      (db.RestoresInto codec target ↔ db.RestorableInto codec target)) ∧
      (∀ db, Operated codec db → db.Sound codec) ∧
      ∀ s, Called s → s.storage.FileNames → (StoredDatabase.ofExecutor s).Sound codec :=
  ⟨fun _ sound target => sound.restoresInto_iff target, fun _ => Operated.sound,
    fun _ called plain => called.sound plain⟩

end Restoring

section Examples

/-- A directory that was used with a page cache: a table `t` without rows. -/
def pagedDirectory : Directory where
  walLog := []
  checkpointBin := none
  metaBin := none
  dat := ∅
  pages := (∅ : Map String (List UInt8)).insert "t" ((PageTable.open none 4 16).file.getD [])

/-- A directory with other rows of `t`, a log, and a table in pages that the source does
not have. -/
def leftovers : Directory where
  walLog := [(1, .insert 1 "t" 1 (Row.new [.int4 9])), (2, .commit 1)]
  checkpointBin := some (.written 7)
  metaBin := some (.written { tables := [], indexes := ∅ })
  dat := (∅ : Map String (Except MoodengError TableData)).insert "t" (.ok .empty)
  pages := (∅ : Map String (List UInt8)).insert "u" ((PageTable.open none 4 16).file.getD [])

/-- A session that created a table and inserted a row. -/
private structure OneRow (s : Executor) : Prop where
  called : @Called Runtime.reference s
  plain : s.storage.FileNames
  idle : s.activeWriteTxns = 0
  catalog : s.catalog.keys = ["t"]
  tables : s.storage.tables.keys = ["t"]
  rows : (s.storage.tables["t"]?).map (fun data => idsAndValues data.scan) = some [(1, [.int4 1])]

/-- `CREATE TABLE t (id INT PRIMARY KEY); INSERT INTO t VALUES (1)`. -/
private theorem oneRow_of_session : ∃ s, @runActions Runtime.reference
    [.statement createT, .statement (insertT [1])] = some s ∧ OneRow s := by
  obtain ⟨s, ran⟩ : ∃ s, @runActions Runtime.reference
      [.statement createT, .statement (insertT [1])] = some s :=
    Option.isSome_iff_exists.mp (by decide +kernel)
  have counts : ((@runActions Runtime.reference
      [.statement createT, .statement (insertT [1])]).map fun s => (s.activeWriteTxns,
        s.catalog.keys, s.storage.tables.keys)) = some (0, ["t"], ["t"]) := by
    decide +kernel
  have rows : ((@runActions Runtime.reference
      [.statement createT, .statement (insertT [1])]).map fun s =>
        (s.storage.tables["t"]?).map fun data => idsAndValues data.scan) =
      some (some [(1, [.int4 1])]) := by
    decide +kernel
  rw [ran] at counts rows
  simp only [Option.map_some, Option.some.injEq, Prod.mk.injEq] at counts rows
  have run := @ActionRun.of_runActions Runtime.reference _ _ ran
  obtain ⟨l, reached, -⟩ := @ActionRun.reaches Runtime.reference _ _ _ run
  exact ⟨s, ran, @ActionRun.called Runtime.reference _ _ _ run,
    @Reaches.allowed Runtime.reference _ _ _ reached, counts.1, counts.2.1, counts.2.2, rows⟩

/-- The directory has no file of another table. -/
private theorem loadTable_pagedDirectory [Runtime] (codec : PageCodec) (options : StorageOptions)
    {stem : String} (other : stem ≠ "t") :
    pagedDirectory.loadTable codec options stem = .ok (newEmptyBackend options) := by
  refine Directory.loadTable_absent ?_ ExtTreeMap.getElem?_empty
  rw [pagedDirectory, ExtTreeMap.getElem?_insert, if_neg (by simpa using Ne.symm other),
    ExtTreeMap.getElem?_empty]

/-- What is known of the session is known of its database. -/
private theorem OneRow.known {s : Executor} (one : OneRow s) :
    (∀ stem, stem ∈ (StoredDatabase.ofExecutor s).catalog ↔ stem = "t") ∧
      (∀ stem, stem ∈ (StoredDatabase.ofExecutor s).tables ↔ stem = "t") ∧
      ∃ data, (StoredDatabase.ofExecutor s).tables["t"]? = some (.memory data) ∧
        idsAndValues data.scan = [(1, [.int4 1])] := by
  refine ⟨fun stem => ?_, fun stem => ?_, ?_⟩
  · rw [← List.mem_singleton, ← one.catalog]
    exact ExtTreeMap.mem_keys.symm
  · rw [← List.mem_singleton, ← one.tables, ExtTreeMap.mem_keys]
    exact ExtTreeMap.mem_map
  · obtain ⟨data, found, rows⟩ := Option.map_eq_some_iff.mp one.rows
    refine ⟨data, ?_, rows⟩
    rw [StoredDatabase.ofExecutor, ExtTreeMap.getElem?_map, found, Option.map_some]

private theorem fresh_file : ∃ bytes, (PageTable.open none 4 16).file = some bytes :=
  let _ := Runtime.reference
  have fresh : (PageTable.open none 4 16).Kept .flags := .fresh 4 16
  fresh.file

/-- A new file opened again has no rows. -/
private theorem fresh_rows [Runtime] (codec : PageCodec) {bytes : List UInt8}
    (file : (PageTable.open none 4 16).file = some bytes) (maxPages rowsPerPage : Nat) :
    (TableBackend.paged (.open (some bytes) maxPages rowsPerPage)).rows codec = .ok [] := by
  have fresh : (PageTable.open none 4 16).Kept codec := .fresh 4 16
  have again := file ▸ (fresh.reopen maxPages rowsPerPage).2
  obtain ⟨_, scanned, -⟩ := (holdsPages_fresh codec 4 16).scan
  have count : (PageTable.open none 4 16).pageCount = 0 := rfl
  unfold TableBackend.rows TableBackend.scan
  dsimp only
  rw [again, PageTable.answer, scanned, count]
  rfl

/-- A row of a table in memory, restored into a directory with an empty table of that name
in pages. The directory opens, and the table has no row. -/
theorem page_file_hides_restored_table :
    ∃ s, @runActions Runtime.reference [.statement createT, .statement (insertT [1])] = some s ∧
      let db := StoredDatabase.ofExecutor s
      db.activeWriteTxns = 0 ∧
        @StoredDatabase.rows Runtime.reference .flags db "t" = .ok [(1, [.int4 1])] ∧
        ¬ @StoredDatabase.RestoresInto Runtime.reference .flags db pagedDirectory ∧
        ∃ archive restored, @StoredDatabase.backupLive Runtime.reference db = some (.ok archive) ∧
          @StoredDatabase.open Runtime.reference .flags db.options
            (archive.restoreInto pagedDirectory) = .ok restored ∧
          @StoredDatabase.rows Runtime.reference .flags restored "t" = .ok [] := by
  let _ := Runtime.reference
  obtain ⟨s, ran, one⟩ := oneRow_of_session
  obtain ⟨catalog, tables, data, found, values⟩ := one.known
  have sound : (StoredDatabase.ofExecutor s).Sound .flags := one.called.sound one.plain
  obtain ⟨bytes, file⟩ := fresh_file
  have pages : pagedDirectory.pages["t"]? = some bytes := by
    rw [pagedDirectory, ExtTreeMap.getElem?_insert_self, file, Option.getD_some]
  have rows : (StoredDatabase.ofExecutor s).rows .flags "t" = .ok [(1, [.int4 1])] := by
    rw [StoredDatabase.rows_eq found]
    exact congrArg Except.ok values
  have loads : pagedDirectory.loadTable .flags (StoredDatabase.ofExecutor s).options "t" =
      .ok (.paged (.open (some bytes) 1 DEFAULT_ROWS_PER_PAGE)) := Directory.loadTable_pages pages
  have empty := fresh_rows .flags file 1 DEFAULT_ROWS_PER_PAGE
  refine ⟨s, ran, one.idle, rows, fun restores => ?_, ?_⟩
  · obtain ⟨backend, loads', same⟩ := ((sound.restoresInto_iff pagedDirectory).mp restores).pages
      "t" ((catalog "t").mpr rfl) data found (Map.mem_of_getElem?_eq_some pages)
    cases loads.symm.trans loads'
    rw [empty, ← StoredDatabase.rows_eq found, rows] at same
    cases same
  · obtain ⟨archive, archives, backup⟩ := sound.backupLive
    have loaded : (archive.restoreInto pagedDirectory).loadTable .flags
        (StoredDatabase.ofExecutor s).options "t" =
          .ok (.paged (.open (some bytes) 1 DEFAULT_ROWS_PER_PAGE)) := by
      rw [archives.loadTable_memory sound found, if_pos (Map.mem_of_getElem?_eq_some pages), loads]
    obtain ⟨restored, opens⟩ : ∃ restored, StoredDatabase.open .flags
        (StoredDatabase.ofExecutor s).options (archive.restoreInto pagedDirectory) =
          .ok restored := by
      refine archives.opens sound (fun stem => ?_) fun table schema known definition _ => ?_
      · by_cases here : stem = "t"
        · exact ⟨_, here ▸ loaded⟩
        · have missing := ExtTreeMap.getElem?_eq_none fun member => here ((tables stem).mp member)
          exact ⟨_, (archives.loadTable_absent missing).trans (loadTable_pagedDirectory _ _ here)⟩
      · obtain rfl := (catalog table).mp (Map.mem_of_getElem?_eq_some known)
        obtain ⟨scanned, scan, none⟩ := TableBackend.scan_of_rows empty
        refine ⟨_, scanned, loaded, scan, (builds_iff definition scanned).mpr fun _ => ?_⟩
        rw [← none]
        exact List.nodup_nil
    obtain ⟨-, -, held, -⟩ := archives.opened sound opens
    refine ⟨archive, restored, (backup _).mpr ⟨one.idle, rfl⟩, opens, ?_⟩
    rw [StoredDatabase.rows_eq (held "t" ((tables "t").mpr rfl) _ loaded), empty]

/-- An operated database with a page cache whose one table has a row. -/
private structure PagedRow [Runtime] (db : StoredDatabase) : Prop where
  operated : Operated .flags db
  idle : db.activeWriteTxns = 0
  catalog : ∀ ⦃table : String⦄ ⦃schema : TableSchema⦄, db.catalog[table]? = some schema →
    table = "t" ∧ schema.indexes = []
  known : "t" ∈ db.catalog
  tables : ∀ stem, stem ∈ db.tables ↔ stem = "t"
  found : db.tables["t"]? = some (.paged (finalState
    (PageTable.perform .flags (.insert (Row.new [.bool true]))) (.open none 4 16)))

private theorem pagedRow : ∃ db, @PagedRow Runtime.reference db := by
  let _ := Runtime.reference
  let options : StorageOptions := { maxCachedPages := 4, rowsPerPage := 16 }
  let schema : TableSchema := { name := "t", columns := [], indexes := [] }
  let catalog : Catalog := (∅ : Catalog).insert "t" schema
  have listed : ∀ ⦃table : String⦄ ⦃other : TableSchema⦄, catalog[table]? = some other →
      table = "t" ∧ other = schema := by
    intro table other found
    rw [ExtTreeMap.getElem?_insert, ExtTreeMap.getElem?_empty] at found
    split at found
    · rename_i same
      exact ⟨(LawfulEqOrd.eq_of_compare same).symm, (Option.some.inj found).symm⟩
    · cases found
  obtain ⟨none, loaded⟩ : ∃ tables, Directory.empty.loadAll .flags options = .ok tables :=
    Directory.loadAll_accepts fun stem has => absurd has (Directory.not_hasFile_empty stem)
  obtain rfl : none = ∅ := by
    refine ExtTreeMap.ext_getElem? fun stem => ?_
    rw [ExtTreeMap.getElem?_empty]
    exact (Directory.loadAll_ok loaded).2 stem (Directory.not_hasFile_empty stem)
  have fresh := Operated.opened (Directory.agrees_empty options)
    (StoredDatabase.load_eq_ok.mpr ⟨∅, loaded, rfl⟩)
  have created := fresh.step (.creates _ "t" (by decide))
  have found : (ensureBackend options ∅ "t")["t"]? = some (.paged (.open Option.none 4 16)) := by
    rw [ensureBackend, ExtTreeMap.getElem?_insertIfNew]
    simp [newEmptyBackend, options]
  have defined := created.step (.defines _ catalog ∅ (fun table other found => by
      obtain ⟨rfl, rfl⟩ := listed found
      rfl) (fun table other found => by
      obtain ⟨-, rfl⟩ := listed found
      exact List.nodup_nil) fun table known => by
      obtain ⟨other, held⟩ := Option.isSome_iff_exists.mp
        (ExtTreeMap.isSome_getElem?_iff_mem.mpr known)
      obtain ⟨rfl, -⟩ := listed held
      exact Map.mem_of_getElem?_eq_some found)
  have performed := defined.step (.performs _ "t" (.open Option.none 4 16)
    (.insert (Row.new [.bool true])) found fun data stands => by
      have next : data.nextId = 1 := stands.nextId.symm
      have empty : data.pages 0 = ∅ := stands.holds.unused 0 (Nat.zero_le 0)
      refine allows_insert ?_ ?_ ?_
      · rw [next]
        decide
      · rw [next]
        decide
      · change Decodes .flags ((data.pages (pageNumber 16 data.nextId)).insert data.nextId _)
        have first : pageNumber 16 1 = 0 := by decide
        rw [next, first, empty]
        decide +kernel)
  refine ⟨_, performed, rfl, fun table other held => ?_, ExtTreeMap.mem_insert_self, fun stem => ?_,
    ExtTreeMap.getElem?_insert_self⟩
  · obtain ⟨rfl, rfl⟩ := listed held
    exact ⟨rfl, rfl⟩
  · change stem ∈ (ensureBackend options ∅ "t").insert "t" _ ↔ _
    rw [ExtTreeMap.mem_insert, ensureBackend, ExtTreeMap.mem_insertIfNew, Std.compare_eq_iff_eq]
    simp [eq_comm]

/-- A table with a row is restored over another database, with the same table and one in
pages; and so is one in pages over pages of its name. -/
theorem restores_into_iff_leftovers :
    (∃ s, @runActions Runtime.reference [.statement createT, .statement (insertT [1])] = some s ∧
      @StoredDatabase.RestoresInto Runtime.reference .flags (.ofExecutor s) leftovers) ∧
      ∃ db, @Operated Runtime.reference .flags db ∧ "t" ∈ db.catalog ∧
        db.tables["t"]? = some (.paged (finalState (@PageTable.perform Runtime.reference .flags
          (.insert (Row.new [.bool true]))) (.open none 4 16))) ∧
        @StoredDatabase.RestoresInto Runtime.reference .flags db pagedDirectory := by
  let _ := Runtime.reference
  obtain ⟨restores, operated, sessions⟩ := restores_into_iff .flags
  constructor
  · obtain ⟨s, ran, one⟩ := oneRow_of_session
    obtain ⟨catalog, tables, data, found, values⟩ := one.known
    refine ⟨s, ran, (restores _ (sessions s one.called one.plain) leftovers).mpr
      ⟨one.idle, fun table schema known definition defined unique rows read => ?_,
        fun table known data found member => ?_, fun stem missing => ?_⟩⟩
    · obtain rfl := (catalog table).mp (Map.mem_of_getElem?_eq_some known)
      rw [StoredDatabase.rows_eq found] at read
      obtain rfl : idsAndValues data.scan = rows := Except.ok.inj read
      rw [values]
      exact List.nodup_singleton _
    · obtain rfl := (catalog table).mp known
      simp [leftovers] at member
    · have here : stem ≠ "t" := fun same => missing ((tables stem).mpr same)
      cases pages : leftovers.pages[stem]? with
      | some bytes => exact ⟨_, Directory.loadTable_pages pages⟩
      | none =>
          refine ⟨_, Directory.loadTable_absent pages ?_⟩
          rw [leftovers, ExtTreeMap.getElem?_insert, if_neg (by simpa using Ne.symm here),
            ExtTreeMap.getElem?_empty]
  · obtain ⟨db, paged⟩ := pagedRow
    refine ⟨db, paged.operated, paged.known, paged.found,
      (restores db (operated db paged.operated) pagedDirectory).mpr
      ⟨paged.idle, fun table schema known definition defined => ?_,
        fun table known data found _ => ?_, fun stem missing => ?_⟩⟩
    · rw [(paged.catalog known).2] at defined
      cases defined
    · obtain ⟨schema, held⟩ := Option.isSome_iff_exists.mp
        (ExtTreeMap.isSome_getElem?_iff_mem.mpr known)
      obtain ⟨rfl, -⟩ := paged.catalog held
      cases paged.found.symm.trans found
    · exact ⟨_, loadTable_pagedDirectory _ _ fun same => missing ((paged.tables stem).mpr same)⟩

end Examples

end MoodengSQL
