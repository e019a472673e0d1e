import MoodengSQL.Recovery.Directories

/-!
# Databases that are saved

The tables in pages agree with their files, and every file belongs to a table. This
holds of a database opened from a directory whose `.pages` files are those of tables,
and is kept by whatever changes a table, the catalog or the log, by checkpoints, and by
opening the directory again under any options.
-/

namespace MoodengSQL

open Foundation Foundation.Effect Std

variable [Runtime] {codec : PageCodec}

section Pages

/-- The pages of the table are those of its file, and the header counts them. -/
def PageTable.Kept (codec : PageCodec) (pt : PageTable) : Prop :=
  ∃ data recorded, Stands codec pt.rowsPerPage pt data ∧ HeaderOf pt data recorded

namespace PageTable.Kept

variable {pt : PageTable}

theorem fresh (maxPages rowsPerPage : Nat) :
    (PageTable.open none maxPages rowsPerPage).Kept codec :=
  ⟨.fresh, False, stands_fresh maxPages, headerOf_fresh maxPages rowsPerPage⟩

/-- An operation keeps the pages in agreement. -/
theorem perform (kept : pt.Kept codec) {op : BackendOp}
    (allows : ∀ data, Stands codec pt.rowsPerPage pt data →
      data.Allows codec pt.rowsPerPage op) :
    (finalState (PageTable.perform codec op) pt).Kept codec := by
  obtain ⟨data, recorded, stands, header⟩ := kept
  have stepped := stands.perform (allows data stands)
  refine ⟨_, _, ?_, header.step stands stepped⟩
  rw [stepped.stands.rowsPerPage]
  exact stepped.stands

/-- Tables with the same pages have the same scan. -/
theorem scan_eq {again : PageTable} {pages : Nat → PageBody} (holds : HoldsPages codec pt pages)
    (holds' : HoldsPages codec again pages) (count : again.pageCount = pt.pageCount) :
    PageTable.answer (PageTable.scan codec) again = PageTable.answer (PageTable.scan codec) pt := by
  obtain ⟨_, scanned, -⟩ := holds.scan
  obtain ⟨_, scanned', -⟩ := holds'.scan
  rw [PageTable.answer, PageTable.answer, scanned, scanned', count]

/-- A flush writes the header and keeps the rows. -/
theorem flush (kept : pt.Kept codec) :
    ∃ pt', onPages PageTable.flushAll pt = .ok ((), pt') ∧ pt'.Kept codec ∧
      PageTable.answer (PageTable.scan codec) pt' =
        PageTable.answer (PageTable.scan codec) pt := by
  obtain ⟨data, recorded, stands, header⟩ := kept
  obtain ⟨file, wrote, held, written⟩ := stands.holds.writeHeader
  rw [writtenHeader_eq (stands.nextId ▸ stands.nextIdSmall)
    (stands.pageCount ▸ stands.pageCountSmall), stands.nextId, stands.pageCount] at written
  refine ⟨{ pt with file }, ?_, ⟨data, True, ?_, ?_⟩, scan_eq stands.holds held rfl⟩
  · simp only [onPages, PageTable.flushAll, wrote]
  · exact ⟨held, rfl, stands.nextId, stands.pageCount, stands.nextIdSmall, stands.pageCountSmall⟩
  · exact ⟨congrArg Prod.snd written, fun _ => congrArg Prod.fst written, (absurd trivial ·)⟩

/-- The file opened again has the table. -/
theorem reopen (kept : pt.Kept codec) (maxPages rowsPerPage : Nat) :
    (PageTable.open pt.file maxPages rowsPerPage).Kept codec ∧
      PageTable.answer (PageTable.scan codec) (.open pt.file maxPages rowsPerPage) =
        PageTable.answer (PageTable.scan codec) pt := by
  obtain ⟨data, recorded, stands, header⟩ := kept
  have again := stands.reopen header maxPages rowsPerPage
  obtain ⟨-, -, -, -, file⟩ := stands.holds.reopen
    (header.pageCount.trans stands.pageCount.symm) maxPages rowsPerPage
  refine ⟨⟨{ data with nextId := (readHeader pt.file).1 }, True, ?_, ?_, fun _ => ?_,
    (absurd trivial ·)⟩, scan_eq stands.holds again.holds ?_⟩
  · rw [again.rowsPerPage]
    exact again
  · rw [file, header.pageCount]
  · rw [file]
  · rw [again.pageCount, stands.pageCount]

/-- The table has a file. -/
theorem file (kept : pt.Kept codec) : ∃ bytes, pt.file = some bytes := by
  obtain ⟨data, recorded, stands, header⟩ := kept
  obtain ⟨bytes, file, -⟩ := stands.holds.slots
  exact ⟨bytes, file⟩

/-- A scan of the table goes through. -/
theorem scan (kept : pt.Kept codec) :
    ∃ rows, PageTable.answer (PageTable.scan codec) pt = .ok rows := by
  obtain ⟨data, recorded, stands, header⟩ := kept
  obtain ⟨_, scanned, -⟩ := stands.holds.scan
  exact ⟨_, by rw [PageTable.answer, scanned]⟩

end PageTable.Kept

end Pages

/-- What is known of a database and the files behind it: every table has the name of a file,
every file belongs to a table, and the tables in pages agree with their files. -/
structure StoredDatabase.Sound (codec : PageCodec) (db : StoredDatabase) : Prop where
  named : ∀ ⦃table : String⦄ ⦃schema : TableSchema⦄, db.catalog[table]? = some schema →
    schema.name = table
  namesDiffer : NamesDiffer db.catalog
  backed : ∀ table ∈ db.catalog, table ∈ db.tables
  plain : ∀ table ∈ db.tables, isFileName table = true
  known : ∀ stem ∈ db.dat, stem ∈ db.tables
  inMemory : ∀ ⦃table : String⦄ ⦃data : TableData⦄,
    db.tables[table]? = some (.memory data) → db.options.maxCachedPages = 0
  inPages : ∀ ⦃table : String⦄ ⦃pt : PageTable⦄,
    db.tables[table]? = some (.paged pt) → pt.Kept codec

section Checkpoint

/-- Two states of a table with the same rows: in memory the same, in pages with a file
that agrees. -/
inductive TableBackend.SameRows (codec : PageCodec) : TableBackend → TableBackend → Prop
  | memory (data : TableData) :
      TableBackend.SameRows codec (TableBackend.memory data) (TableBackend.memory data)
  | paged {pt pt' : PageTable} (kept : PageTable.Kept codec pt')
      (same : PageTable.answer (PageTable.scan codec) pt' =
        PageTable.answer (PageTable.scan codec) pt) :
      TableBackend.SameRows codec (TableBackend.paged pt) (TableBackend.paged pt')

theorem TableBackend.SameRows.trans {first second third : TableBackend}
    (before : SameRows codec first second) (after : SameRows codec second third) :
    SameRows codec first third := by
  cases before with
  | memory data => exact after
  | paged kept same =>
      cases after with
      | paged kept' same' => exact .paged kept' (same'.trans same)

theorem TableBackend.SameRows.scan {before after : TableBackend}
    (same : SameRows codec before after) : after.scan codec = before.scan codec := by
  cases same with
  | memory data => rfl
  | paged kept same => exact same

/-- Some tables have been persisted. -/
structure StoredDatabase.Persists (codec : PageCodec) (db db' : StoredDatabase)
    (written : String → Prop) : Prop where
  frame : db' = { db with tables := db'.tables, dat := db'.dat }
  present : ∀ ⦃table : String⦄ ⦃before : TableBackend⦄, db.tables[table]? = some before →
    ∃ after, db'.tables[table]? = some after ∧ TableBackend.SameRows codec before after
  absent : ∀ ⦃table : String⦄, db.tables[table]? = none → db'.tables[table]? = none
  saved : ∀ ⦃table : String⦄ ⦃data : TableData⦄, db.tables[table]? = some (.memory data) →
    written table → db'.dat[table]? = some (.ok data)
  kept : ∀ table, (∀ data, db.tables[table]? = some (.memory data) → ¬ written table) →
    db'.dat[table]? = db.dat[table]?

namespace StoredDatabase

variable {db db' : StoredDatabase}

theorem Persists.mem_iff {written : String → Prop} (persists : Persists codec db db' written)
    (table : String) : table ∈ db'.tables ↔ table ∈ db.tables := by
  cases found : db.tables[table]? with
  | none =>
      have absent := persists.absent found
      rw [← ExtTreeMap.isSome_getElem?_iff_mem, ← ExtTreeMap.isSome_getElem?_iff_mem, found, absent]
  | some before =>
      obtain ⟨after, found', -⟩ := persists.present found
      exact iff_of_true (Map.mem_of_getElem?_eq_some found') (Map.mem_of_getElem?_eq_some found)

/-- What is known of a database is known when tables have been persisted. -/
theorem Persists.sound {written : String → Prop} (persists : Persists codec db db' written)
    (sound : db.Sound codec) : db'.Sound codec := by
  have member := persists.mem_iff
  obtain ⟨frame, present, absent, -, kept⟩ := persists
  have before : ∀ {table : String} {after : TableBackend}, db'.tables[table]? = some after →
      ∃ before, db.tables[table]? = some before ∧ TableBackend.SameRows codec before after := by
    intro table after found
    cases found' : db.tables[table]? with
    | none =>
        rw [absent found'] at found
        cases found
    | some before =>
        obtain ⟨other, same, rows⟩ := present found'
        cases found.symm.trans same
        exact ⟨before, rfl, rows⟩
  rw [frame]
  refine ⟨sound.named, sound.namesDiffer, fun table listed => (member table).mpr
    (sound.backed table listed), fun table listed => sound.plain table ((member table).mp listed),
    fun stem saved => (member stem).mpr ?_, ?_, ?_⟩
  · by_cases inMemory : ∃ data, db.tables[stem]? = some (.memory data)
    · obtain ⟨data, found⟩ := inMemory
      exact Map.mem_of_getElem?_eq_some found
    · apply sound.known
      rw [← ExtTreeMap.isSome_getElem?_iff_mem,
        ← kept stem fun data found _ => inMemory ⟨data, found⟩]
      exact ExtTreeMap.isSome_getElem?_iff_mem.mpr saved
  · intro table data found
    obtain ⟨other, found', same⟩ := before found
    cases same
    exact sound.inMemory found'
  · intro table pt found
    obtain ⟨other, found', same⟩ := before found
    cases same with
    | paged kept same => exact kept

/-- A table is persisted. -/
theorem Sound.persistTable (sound : db.Sound codec) {table : String} (member : table ∈ db.tables) :
    ∃ db', db.persistTable table = .ok db' ∧ Persists codec db db' (· = table) := by
  obtain ⟨backend, found⟩ := Option.isSome_iff_exists.mp
    (ExtTreeMap.isSome_getElem?_iff_mem.mpr member)
  have others : ∀ ⦃name : String⦄ ⦃before : TableBackend⦄, db.tables[name]? = some before →
      TableBackend.SameRows codec before before := by
    intro name before found
    cases before with
    | memory data => exact .memory data
    | paged pt => exact .paged (sound.inPages found) rfl
  cases backend with
  | memory data =>
      refine ⟨{ db with dat := db.dat.insert table (.ok data) }, ?_, rfl,
        fun name before found => ⟨before, found, others found⟩, fun _ => id, ?_, ?_⟩
      · simp only [StoredDatabase.persistTable, found]
      · rintro name data' found' rfl
        cases found.symm.trans found'
        exact ExtTreeMap.getElem?_insert_self
      · intro name unwritten
        by_cases here : name = table
        · subst here
          exact absurd rfl (unwritten data found)
        · rw [ExtTreeMap.getElem?_insert, if_neg (by simpa using Ne.symm here)]
  | paged pt =>
      obtain ⟨pt', flushed, kept, same⟩ := (sound.inPages found).flush
      refine ⟨{ db with tables := db.tables.insert table (.paged pt') }, ?_, rfl, ?_, ?_, ?_,
        fun _ _ => rfl⟩
      · simp only [StoredDatabase.persistTable, found, flushed]
        rfl
      · intro name before found'
        by_cases here : name = table
        · subst here
          cases found.symm.trans found'
          exact ⟨_, ExtTreeMap.getElem?_insert_self, .paged kept same⟩
        · refine ⟨before, ?_, others found'⟩
          rw [ExtTreeMap.getElem?_insert, if_neg (by simpa using Ne.symm here)]
          exact found'
      · intro name absent
        have differ : ¬ compare table name = .eq := by
          intro same
          obtain rfl := LawfulEqOrd.eq_of_compare same
          cases found.symm.trans absent
        rw [ExtTreeMap.getElem?_insert, if_neg differ]
        exact absent
      · rintro name data found' rfl
        cases found.symm.trans found'

/-- Persisting the same or other tables behind it. -/
theorem Persists.trans {first second third : StoredDatabase} {early late : String → Prop}
    (before : Persists codec first second early) (after : Persists codec second third late) :
    Persists codec first third fun table => early table ∨ late table := by
  have memory : ∀ {table : String} {data : TableData},
      first.tables[table]? = some (.memory data) ↔ second.tables[table]? = some (.memory data) := by
    intro table data
    constructor
    · intro found
      obtain ⟨_, found', same⟩ := before.present found
      cases same
      exact found'
    · intro found
      cases found' : first.tables[table]? with
      | none =>
          rw [before.absent found'] at found
          cases found
      | some backend =>
          obtain ⟨_, found'', same⟩ := before.present found'
          cases found.symm.trans found''
          cases same
          rfl
  refine ⟨?_, ?_, fun table absent => after.absent (before.absent absent), ?_, ?_⟩
  · rw [after.frame, before.frame]
  · intro table backend found
    obtain ⟨mid, found', same⟩ := before.present found
    obtain ⟨last, found'', same'⟩ := after.present found'
    exact ⟨last, found'', same.trans same'⟩
  · intro table data found written
    by_cases again : late table
    · exact after.saved (memory.mp found) again
    · rw [after.kept table fun _ _ => again]
      exact before.saved found (written.resolve_right again)
  · intro table unwritten
    rw [after.kept table fun data found written => unwritten data (memory.mpr found) (.inr written),
      before.kept table fun data found written => unwritten data found (.inl written)]

/-- Tables are persisted one after the other. -/
theorem Sound.persistTables (sound : db.Sound codec) {names : List String}
    (members : ∀ table ∈ names, table ∈ db.tables) :
    ∃ db', names.foldlM StoredDatabase.persistTable db = .ok db' ∧
      Persists codec db db' (· ∈ names) := by
  induction names generalizing db with
  | nil =>
      refine ⟨db, rfl, rfl, fun table backend found => ?_, fun _ => id, nofun, fun _ _ => rfl⟩
      cases backend with
      | memory data => exact ⟨_, found, .memory data⟩
      | paged pt => exact ⟨_, found, .paged (sound.inPages found) rfl⟩
  | cons table rest ih =>
      obtain ⟨mid, persisted, first⟩ := sound.persistTable (members table List.mem_cons_self)
      obtain ⟨db', ran, later⟩ := ih (first.sound sound) fun other member =>
        (first.mem_iff other).mpr (members other (List.mem_cons_of_mem _ member))
      refine ⟨db', ?_, ?_⟩
      · rw [List.foldlM_cons, persisted]
        exact ran
      · have both := first.trans later
        simp only [← List.mem_cons] at both
        exact both

/-- **A checkpoint** goes through, and saves every table that is held in memory. -/
theorem Sound.checkpointStorage (sound : db.Sound codec) :
    ∃ saved : StoredDatabase, db.checkpointStorage =
        .ok { saved with wal := (saved.wal.markCheckpoint saved.wal.lsn).truncate } ∧
      Persists codec db saved (· ∈ db.tables) := by
  have listed (table : String) :
      table ∈ Runtime.hashOrder.order "tables" db.tables.keys ↔ table ∈ db.tables :=
    (Runtime.hashOrder.perm "tables" db.tables.keys).mem_iff.trans ExtTreeMap.mem_keys
  obtain ⟨saved, ran, persists⟩ := sound.persistTables fun table => (listed table).mp
  refine ⟨saved, ?_, ?_⟩
  · simp only [StoredDatabase.checkpointStorage, ran]
    rfl
  · simp only [listed] at persists
    exact persists

end StoredDatabase

end Checkpoint

section Loading

namespace Directory

variable {options : StorageOptions} {dir : Directory} {stem : String}

/-- A `.pages` file is opened, whatever else there is. -/
theorem loadTable_pages {bytes : List UInt8} (found : dir.pages[stem]? = some bytes) :
    dir.loadTable codec options stem = .ok (.paged
      (.open (some bytes) (max options.maxCachedPages 1) options.rowsPerPage)) := by
  simp only [Directory.loadTable, found, MoodengSQL.loadTable]

/-- Without a page cache a `.dat` file alone is read. -/
theorem loadTable_dat {data : TableData} (uncached : options.maxCachedPages = 0)
    (absent : dir.pages[stem]? = none) (found : dir.dat[stem]? = some (.ok data)) :
    dir.loadTable codec options stem = .ok (.memory data) := by
  simp [Directory.loadTable, absent, found, MoodengSQL.loadTable, uncached, Except.toOption,
    StorageEngine.readTableFile]

/-- A table without a file is new. -/
theorem loadTable_absent (pages : dir.pages[stem]? = none) (dat : dir.dat[stem]? = none) :
    dir.loadTable codec options stem = .ok (newEmptyBackend options) := by
  by_cases cached : 0 < options.maxCachedPages
  · simp [Directory.loadTable, pages, dat, MoodengSQL.loadTable, newEmptyBackend, cached]
  · simp [Directory.loadTable, pages, dat, MoodengSQL.loadTable, newEmptyBackend, cached]

/-- Only the files of the table matter. -/
theorem loadTable_congr {other : Directory} (pages : other.pages[stem]? = dir.pages[stem]?)
    (dat : other.dat[stem]? = dir.dat[stem]?) :
    other.loadTable codec options stem = dir.loadTable codec options stem := by
  rw [Directory.loadTable, Directory.loadTable, pages, dat]

theorem loadEach_spec {stems : List String} (tables : Map String TableBackend)
    (loads : ∀ stem ∈ stems, ∃ backend, dir.loadTable codec options stem = .ok backend) :
    ∃ loaded, dir.loadEach codec options stems tables = .ok loaded ∧
      ∀ name, loaded[name]? =
        if name ∈ stems then (dir.loadTable codec options name).toOption else tables[name]? := by
  induction stems generalizing tables with
  | nil => exact ⟨tables, rfl, fun name => by simp⟩
  | cons stem rest ih =>
      obtain ⟨backend, first⟩ := loads stem List.mem_cons_self
      obtain ⟨loaded, ran, found⟩ := ih (tables.insert stem backend)
        fun other member => loads other (List.mem_cons_of_mem _ member)
      refine ⟨loaded, ?_, fun name => ?_⟩
      · rw [Directory.loadEach, first]
        exact ran
      · rw [found name, ExtTreeMap.getElem?_insert]
        by_cases later : name ∈ rest
        · simp [later]
        · by_cases here : name = stem
          · subst here
            simp [later, first, Except.toOption]
          · simp [later, here, Ne.symm here]

theorem loads_of_loadEach {stems : List String} {tables loaded : Map String TableBackend}
    (ran : dir.loadEach codec options stems tables = .ok loaded) :
    ∀ stem ∈ stems, ∃ backend, dir.loadTable codec options stem = .ok backend := by
  induction stems generalizing tables with
  | nil => exact fun _ member => absurd member List.not_mem_nil
  | cons stem rest ih =>
      obtain ⟨backend, first, later⟩ := except_bind_eq_ok.mp ran
      intro other member
      rcases List.mem_cons.mp member with rfl | member
      · exact ⟨backend, first⟩
      · exact ih later other member

/-- The table has a file. -/
def HasFile (dir : Directory) (stem : String) : Prop := stem ∈ dir.dat ∨ stem ∈ dir.pages

theorem mem_stems : stem ∈ Runtime.hashOrder.order "load_all"
    (dir.dat.keys ++ dir.pages.keys).dedup ↔ dir.HasFile stem := by
  rw [(Runtime.hashOrder.perm "load_all" _).mem_iff, List.mem_dedup, List.mem_append,
    ExtTreeMap.mem_keys, ExtTreeMap.mem_keys, HasFile]

/-- A directory loads if every table does. -/
theorem loadAll_accepts (loads : ∀ stem, dir.HasFile stem →
    ∃ backend, dir.loadTable codec options stem = .ok backend) :
    ∃ tables, dir.loadAll codec options = .ok tables := by
  obtain ⟨tables, ran, -⟩ := dir.loadEach_spec ∅ fun stem member => loads stem (mem_stems.mp member)
  exact ⟨tables, ran⟩

/-- **A loaded directory** has the tables of its files. -/
theorem loadAll_ok {tables : Map String TableBackend}
    (ran : dir.loadAll codec options = .ok tables) :
    (∀ stem, dir.HasFile stem → ∃ backend, dir.loadTable codec options stem = .ok backend ∧
      tables[stem]? = some backend) ∧
      ∀ stem, ¬ dir.HasFile stem → tables[stem]? = none := by
  have loads := loads_of_loadEach ran
  obtain ⟨loaded, ran', found⟩ := dir.loadEach_spec ∅ loads
  cases ran.symm.trans ran'
  refine ⟨fun stem has => ?_, fun stem lacks => ?_⟩
  · obtain ⟨backend, loads⟩ := loads stem (mem_stems.mpr has)
    exact ⟨backend, loads, by rw [found, if_pos (mem_stems.mpr has), loads]; rfl⟩
  · rw [found, if_neg (mt mem_stems.mp lacks), ExtTreeMap.getElem?_empty]

end Directory

end Loading

section Steps

/-- The rows of a `.dat` file can be numbered in pages, and `bincode` decodes these back. -/
structure Importable (codec : PageCodec) (rowsPerPage : Nat) (data : TableData) : Prop where
  nextId : data.nextId < 2 ^ 64
  page : ∀ rowId ∈ data.rows, pageNumber rowsPerPage rowId + 1 < 2 ^ 32
  decodes : DecodesRows codec data

/-- What changes a database or its files. -/
inductive StoredDatabase.Step (codec : PageCodec) : StoredDatabase → StoredDatabase → Prop
  /-- The catalog and the indexes change. -/
  | defines (db : StoredDatabase) (catalog : Catalog) (indexes : IndexManager)
      (named : ∀ ⦃table : String⦄ ⦃schema : TableSchema⦄, catalog[table]? = some schema →
        schema.name = table)
      (namesDiffer : NamesDiffer catalog) (backed : ∀ table ∈ catalog, table ∈ db.tables) :
      Step codec db { db with catalog, indexes }
  /-- The log and the counter of write transactions change. -/
  | logs (db : StoredDatabase) (wal : WriteAheadLog) (activeWriteTxns : Nat) :
      Step codec db { db with wal, activeWriteTxns }
  /-- A table is created. -/
  | creates (db : StoredDatabase) (table : String) (plain : isFileName table = true) :
      Step codec db { db with tables := ensureBackend db.options db.tables table }
  /-- The rows of a table in memory change. -/
  | changes (db : StoredDatabase) (table : String) (old data : TableData)
      (found : db.tables[table]? = some (.memory old)) :
      Step codec db { db with tables := db.tables.insert table (.memory data) }
  /-- An operation on a table in pages, whose numbers do not overflow. -/
  | performs (db : StoredDatabase) (table : String) (pt : PageTable) (op : BackendOp)
      (found : db.tables[table]? = some (.paged pt))
      (allows : ∀ data, Stands codec pt.rowsPerPage pt data →
        data.Allows codec pt.rowsPerPage op) :
      Step codec db { db with
        tables := db.tables.insert table (.paged (finalState (PageTable.perform codec op) pt)) }
  /-- A table that the catalog no longer has is dropped with its files. -/
  | drops (db : StoredDatabase) (table : String) (unlisted : table ∉ db.catalog) :
      Step codec db { db with tables := db.tables.erase table, dat := db.dat.erase table }
  /-- The `.dat` file of a table is written, or cut short by a crash. -/
  | writes (db : StoredDatabase) (table : String) (image : Except MoodengError TableData)
      (known : table ∈ db.tables) : Step codec db { db with dat := db.dat.insert table image }
  /-- A checkpoint. -/
  | saves (db db' : StoredDatabase) (saved : db.checkpointStorage = .ok db') : Step codec db db'
  /-- The catalog is saved. -/
  | persists (db : StoredDatabase) : Step codec db db.persist
  /-- The directory is opened again under any options. The records that are replayed
  then change the tables like any others. -/
  | reopens (db db' : StoredDatabase) (options : StorageOptions)
      (loaded : StoredDatabase.load codec options db.directory = .ok db')
      (imports : 0 < options.maxCachedPages → ∀ (stem : String) (data : TableData),
        db.dat[stem]? = some (.ok data) → Importable codec options.rowsPerPage data) :
      Step codec db db'

/-- The `.pages` files of the directory are those of tables, its files have the names of
tables, and so do the tables of its catalog. -/
structure Directory.Agrees (codec : PageCodec) (options : StorageOptions) (dir : Directory) :
    Prop where
  catalog : ∀ ⦃table : String⦄ ⦃schema : TableSchema⦄,
    (diskCatalog dir.metaBin)[table]? = some schema → schema.name = table ∧
      (schema.indexes.map IndexMeta.name).Nodup ∧ isFileName table = true
  plain : ∀ stem, dir.HasFile stem → isFileName stem = true
  files : ∀ (stem : String) (bytes : List UInt8), dir.pages[stem]? = some bytes →
    ∃ pt : PageTable, pt.Kept codec ∧ pt.file = some bytes
  imports : 0 < options.maxCachedPages → ∀ (stem : String) (data : TableData),
    dir.dat[stem]? = some (.ok data) → Importable codec options.rowsPerPage data

/-- A directory without files. -/
def Directory.empty : Directory where
  walLog := []
  checkpointBin := none
  metaBin := none
  dat := ∅
  pages := ∅

omit [Runtime] in
theorem Directory.not_hasFile_empty (stem : String) : ¬ Directory.empty.HasFile stem :=
  fun has => has.elim ExtTreeMap.not_mem_empty ExtTreeMap.not_mem_empty

theorem Directory.agrees_empty (options : StorageOptions) :
    Directory.empty.Agrees codec options where
  catalog table schema found := by simp [Directory.empty, diskCatalog, loadSnapshot] at found
  plain stem has := absurd has (not_hasFile_empty stem)
  files stem bytes found :=
    absurd (.inr (Map.mem_of_getElem?_eq_some found)) (not_hasFile_empty stem)
  imports _ stem data found :=
    absurd (.inl (Map.mem_of_getElem?_eq_some found)) (not_hasFile_empty stem)

/-- The databases that are reached from directories that agree with tables, such as the
empty one. -/
inductive Operated (codec : PageCodec) : StoredDatabase → Prop
  | opened {db : StoredDatabase} {options : StorageOptions} {dir : Directory}
      (agrees : dir.Agrees codec options)
      (loaded : StoredDatabase.load codec options dir = .ok db) : Operated codec db
  | step {db db' : StoredDatabase} (operated : Operated codec db)
      (step : StoredDatabase.Step codec db db') : Operated codec db'

section Reopening

variable {options : StorageOptions} {dir : Directory} {stem : String}

omit [Runtime] in
theorem newEmptyBackend_memory {data : TableData}
    (new : newEmptyBackend options = .memory data) : options.maxCachedPages = 0 := by
  unfold newEmptyBackend at new
  split at new
  · cases new
  · omega

theorem newEmptyBackend_paged {pt : PageTable} (new : newEmptyBackend options = .paged pt) :
    pt.Kept codec := by
  unfold newEmptyBackend at new
  split at new
  · cases new
    exact .fresh _ _
  · cases new

/-- A table is held in memory only without a page cache. -/
theorem Directory.loadTable_memory {data : TableData}
    (loaded : dir.loadTable codec options stem = .ok (.memory data)) :
    options.maxCachedPages = 0 := by
  by_contra cached
  have cached : 0 < options.maxCachedPages := Nat.pos_of_ne_zero cached
  unfold Directory.loadTable at loaded
  split at loaded
  · cases loaded
  · unfold MoodengSQL.loadTable at loaded
    simp only [if_pos cached] at loaded
    split at loaded
    · cases loaded
    · split at loaded
      · split at loaded <;> cases loaded
      · cases loaded

/-- A table in pages is loaded from a file that agrees with a table, or imported. -/
theorem Directory.loadTable_kept {pt : PageTable}
    (loaded : dir.loadTable codec options stem = .ok (.paged pt))
    (files : ∀ bytes, dir.pages[stem]? = some bytes →
      ∃ pt' : PageTable, pt'.Kept codec ∧ pt'.file = some bytes)
    (imports : 0 < options.maxCachedPages → ∀ data, dir.dat[stem]? = some (.ok data) →
      Importable codec options.rowsPerPage data) : pt.Kept codec := by
  cases pages : dir.pages[stem]? with
  | some bytes =>
      obtain ⟨before, kept, file⟩ := files bytes pages
      rw [loadTable_pages pages] at loaded
      cases loaded
      exact file ▸ (kept.reopen _ _).1
  | none =>
      cases dat : dir.dat[stem]? with
      | none =>
          rw [loadTable_absent pages dat] at loaded
          exact newEmptyBackend_paged (Except.ok.inj loaded)
      | some read =>
          cases read with
          | error e =>
              simp only [Directory.loadTable, pages, dat] at loaded
              cases loaded
          | ok data =>
              by_cases cached : 0 < options.maxCachedPages
              · obtain ⟨small, page, decodes⟩ := imports cached data dat
                have lists : ListsRows data options.rowsPerPage
                    (Runtime.hashOrder.order "TableData.rows" data.rows.toList) := by
                  refine ⟨Runtime.hashOrder.perm _ _, fun entry member => page _ ?_⟩
                  rw [(Runtime.hashOrder.perm _ _).mem_iff,
                    ExtTreeMap.mem_toList_iff_getElem?_eq_some] at member
                  exact Map.mem_of_getElem?_eq_some member
                obtain ⟨goes, stops⟩ := importRows_spec options.maxCachedPages small lists decodes
                simp only [Directory.loadTable, pages, dat, Option.bind_some, Except.toOption,
                  Option.map_some, Option.getD_some, MoodengSQL.loadTable, if_pos cached,
                  StorageEngine.readTableFile] at loaded
                by_cases fits : ImportFits codec options.rowsPerPage (fun _ => ∅)
                    (Runtime.hashOrder.order "TableData.rows" data.rows.toList)
                · obtain ⟨pt', rows, ran, imported, header⟩ := goes fits
                  rw [ran] at loaded
                  cases loaded
                  refine ⟨rows, True, ?_, ?_, fun _ => ?_, (absurd trivial ·)⟩
                  · exact imported.stands.rowsPerPage.symm ▸ imported.stands
                  · rw [header]
                  · rw [header]
                · obtain ⟨failure, pt', failed⟩ := stops fits
                  rw [failed] at loaded
                  cases loaded
              · rw [loadTable_dat (by omega) pages dat] at loaded
                cases loaded

omit [Runtime] in
/-- Ensuring tables leaves those that are there alone. -/
theorem getElem?_ensureBackends (names : List String) (tables : Map String TableBackend)
    (name : String) : (names.foldl (ensureBackend options) tables)[name]? =
      tables[name]?.or (if name ∈ names then some (newEmptyBackend options) else none) := by
  induction names generalizing tables with
  | nil => simp
  | cons first rest ih =>
      rw [List.foldl_cons, ih, ensureBackend, ExtTreeMap.getElem?_insertIfNew]
      by_cases here : name = first
      · subst here
        cases found : tables[name]? with
        | none =>
            have absent : name ∉ tables := fun member => by
              rw [← ExtTreeMap.isSome_getElem?_iff_mem, found] at member
              cases member
            simp [absent]
        | some backend => simp [Map.mem_of_getElem?_eq_some found]
      · simp [here, Ne.symm here]

/-- Opening loads every file and makes a new table for each one of the catalog that has
none. -/
theorem StoredDatabase.load_eq_ok {db : StoredDatabase} :
    StoredDatabase.load codec options dir = .ok db ↔
      ∃ tables, dir.loadAll codec options = .ok tables ∧ db = {
        options, catalog := diskCatalog dir.metaBin
        tables := (diskCatalog dir.metaBin).listTables.foldl (ensureBackend options) tables
        indexes := ∅
        wal := .open dir.walLog dir.checkpointBin
        dat := if 0 < options.maxCachedPages then dir.dat.filter fun stem _ => stem ∈ dir.pages
          else dir.dat
        metaFile := dir.metaBin
        activeWriteTxns := 0 } := by
  rw [StoredDatabase.load, except_bind_eq_ok]
  exact exists_congr fun tables => and_congr_right fun _ => ⟨fun same =>
    (Except.ok.inj same).symm, fun same => congrArg Except.ok same.symm⟩

end Reopening

section Invariant

/-- The saved catalog is one that the database had. -/
def StoredDatabase.CatalogSaved (db : StoredDatabase) : Prop :=
  ∀ ⦃table : String⦄ ⦃schema : TableSchema⦄, (diskCatalog db.metaFile)[table]? = some schema →
    schema.name = table ∧ (schema.indexes.map IndexMeta.name).Nodup ∧ isFileName table = true

variable {db db' : StoredDatabase}

/-- What was loaded is sound if the files agree with tables. -/
theorem Directory.Agrees.sound {options : StorageOptions} {dir : Directory}
    (agrees : dir.Agrees codec options)
    (loaded : StoredDatabase.load codec options dir = .ok db) :
    db.Sound codec ∧ db.CatalogSaved := by
  obtain ⟨catalog, plain, files, imports⟩ := agrees
  obtain ⟨tables, ran, rfl⟩ := StoredDatabase.load_eq_ok.mp loaded
  obtain ⟨present, absent⟩ := Directory.loadAll_ok ran
  have listed (table : String) :
      table ∈ (diskCatalog dir.metaBin).listTables ↔ table ∈ diskCatalog dir.metaBin :=
    ExtTreeMap.mem_keys
  have isPlain : ∀ table ∈ diskCatalog dir.metaBin, isFileName table = true := by
    intro table known
    obtain ⟨schema, found⟩ := Option.isSome_iff_exists.mp
      (ExtTreeMap.isSome_getElem?_iff_mem.mpr known)
    exact (catalog found).2.2
  -- every table was loaded from its files or is new
  have origin : ∀ {table : String} {backend : TableBackend},
      ((diskCatalog dir.metaBin).listTables.foldl (ensureBackend options) tables)[table]? =
        some backend →
      dir.HasFile table ∧ dir.loadTable codec options table = .ok backend ∨
        table ∈ diskCatalog dir.metaBin ∧ backend = newEmptyBackend options := by
    intro table backend found
    rw [getElem?_ensureBackends] at found
    by_cases has : dir.HasFile table
    · obtain ⟨other, loads, found'⟩ := present table has
      rw [found', Option.some_or] at found
      cases found
      exact .inl ⟨has, loads⟩
    · rw [absent table has, Option.none_or] at found
      split at found
      · rename_i known
        cases found
        exact .inr ⟨(listed table).mp known, rfl⟩
      · cases found
  have ensured : ∀ table, dir.HasFile table ∨ table ∈ diskCatalog dir.metaBin →
      table ∈ (diskCatalog dir.metaBin).listTables.foldl (ensureBackend options) tables := by
    intro table known
    rw [← ExtTreeMap.isSome_getElem?_iff_mem, getElem?_ensureBackends]
    rcases known with has | known
    · obtain ⟨backend, -, found⟩ := present table has
      rw [found]
      rfl
    · rw [if_pos ((listed table).mpr known)]
      simp
  refine ⟨⟨fun table schema found => (catalog found).1, fun table schema found =>
    (catalog found).2.1, fun table known => ensured table (.inr known), fun table member => ?_,
    fun stem saved => ensured stem (.inl (.inl ?_)), fun table data found => ?_,
    fun table pt found => ?_⟩, catalog⟩
  · obtain ⟨backend, found⟩ := Option.isSome_iff_exists.mp
      (ExtTreeMap.isSome_getElem?_iff_mem.mpr member)
    rcases origin found with ⟨has, -⟩ | ⟨known, -⟩
    · exact plain table has
    · exact isPlain table known
  · dsimp only at saved
    split at saved
    · exact ExtTreeMap.mem_of_mem_filter saved
    · exact saved
  · rcases origin found with ⟨-, loads⟩ | ⟨-, new⟩
    · exact Directory.loadTable_memory loads
    · exact newEmptyBackend_memory new.symm
  · rcases origin found with ⟨-, loads⟩ | ⟨-, new⟩
    · exact Directory.loadTable_kept loads (files table) fun cached => imports cached table
    · exact newEmptyBackend_paged new.symm

/-- A table that is there is replaced. -/
theorem StoredDatabase.Sound.insert (sound : db.Sound codec) {table : String}
    {old backend : TableBackend} (found : db.tables[table]? = some old)
    (memory : ∀ data, backend = .memory data → db.options.maxCachedPages = 0)
    (paged : ∀ pt : PageTable, backend = .paged pt → pt.Kept codec) :
    StoredDatabase.Sound codec { db with tables := db.tables.insert table backend } := by
  have member (name : String) : name ∈ db.tables.insert table backend ↔ name ∈ db.tables := by
    rw [ExtTreeMap.mem_insert, Std.compare_eq_iff_eq, or_iff_right_iff_imp]
    rintro rfl
    exact Map.mem_of_getElem?_eq_some found
  have origin : ∀ {name : String} {other : TableBackend},
      (db.tables.insert table backend)[name]? = some other →
        other = backend ∨ db.tables[name]? = some other := by
    intro name other found
    rw [ExtTreeMap.getElem?_insert] at found
    split at found
    · exact .inl (Option.some.inj found).symm
    · exact .inr found
  refine ⟨sound.named, sound.namesDiffer, fun name known => (member name).mpr
    (sound.backed name known), fun name listed => sound.plain name ((member name).mp listed),
    fun stem saved => (member stem).mpr (sound.known stem saved), fun name data found => ?_,
    fun name pt found => ?_⟩
  · rcases origin found with new | before
    · exact memory data new.symm
    · exact sound.inMemory before
  · rcases origin found with new | before
    · exact paged pt new.symm
    · exact sound.inPages before

/-- **Whatever changes a database** keeps its tables in agreement with its files. -/
theorem StoredDatabase.Step.sound (step : StoredDatabase.Step codec db db')
    (sound : db.Sound codec) (saved : db.CatalogSaved) : db'.Sound codec ∧ db'.CatalogSaved := by
  cases step with
  | defines catalog indexes named namesDiffer backed =>
      exact ⟨⟨named, namesDiffer, backed, sound.plain, sound.known, sound.inMemory, sound.inPages⟩,
        saved⟩
  | logs wal activeWriteTxns =>
      exact ⟨⟨sound.named, sound.namesDiffer, sound.backed, sound.plain, sound.known,
        sound.inMemory, sound.inPages⟩, saved⟩
  | creates table plain =>
      have member (name : String) : name ∈ ensureBackend db.options db.tables table ↔
          table = name ∨ name ∈ db.tables := by
        simp [ensureBackend, ExtTreeMap.mem_insertIfNew]
      have origin : ∀ {name : String} {backend : TableBackend},
          (ensureBackend db.options db.tables table)[name]? = some backend →
            db.tables[name]? = some backend ∨ backend = newEmptyBackend db.options := by
        intro name backend found
        rw [ensureBackend, ExtTreeMap.getElem?_insertIfNew] at found
        split at found
        · cases found
          exact .inr rfl
        · exact .inl found
      refine ⟨⟨sound.named, sound.namesDiffer, fun name known => (member name).mpr
        (.inr (sound.backed name known)), fun name listed => ?_, fun stem saved => (member stem).mpr
        (.inr (sound.known stem saved)), fun name data found => ?_, fun name pt found => ?_⟩, saved⟩
      · rcases (member name).mp listed with rfl | before
        · exact plain
        · exact sound.plain name before
      · rcases origin found with before | new
        · exact sound.inMemory before
        · exact newEmptyBackend_memory new.symm
      · rcases origin found with before | new
        · exact sound.inPages before
        · exact newEmptyBackend_paged new.symm
  | changes table old data found =>
      exact ⟨sound.insert found (fun _ _ => sound.inMemory found) nofun, saved⟩
  | performs table pt op found allows =>
      exact ⟨sound.insert found nofun fun _ same => TableBackend.paged.inj same ▸
        (sound.inPages found).perform allows, saved⟩
  | drops table unlisted =>
      have kept : ∀ {name : String} {backend : TableBackend},
          (db.tables.erase table)[name]? = some backend → db.tables[name]? = some backend := by
        intro name backend found
        rw [ExtTreeMap.getElem?_erase] at found
        split at found
        · cases found
        · exact found
      refine ⟨⟨sound.named, sound.namesDiffer, fun name known => ?_, fun name listed =>
        sound.plain name (ExtTreeMap.mem_of_mem_erase listed), fun stem left => ?_,
        fun name data found => sound.inMemory (kept found),
        fun name pt found => sound.inPages (kept found)⟩, saved⟩
      · refine ExtTreeMap.mem_erase.mpr ⟨fun same => unlisted ?_, sound.backed name known⟩
        exact LawfulEqOrd.eq_of_compare same ▸ known
      · obtain ⟨differ, left⟩ := ExtTreeMap.mem_erase.mp left
        exact ExtTreeMap.mem_erase.mpr ⟨differ, sound.known stem left⟩
  | writes table image known =>
      refine ⟨⟨sound.named, sound.namesDiffer, sound.backed, sound.plain, fun stem saved => ?_,
        sound.inMemory, sound.inPages⟩, saved⟩
      rcases ExtTreeMap.mem_insert.mp saved with same | before
      · exact LawfulEqOrd.eq_of_compare same ▸ known
      · exact sound.known stem before
  | saves db' ran =>
      obtain ⟨files, ran', persists⟩ := sound.checkpointStorage
      cases ran.symm.trans ran'
      have kept := persists.sound sound
      exact ⟨⟨kept.named, kept.namesDiffer, kept.backed, kept.plain, kept.known, kept.inMemory,
        kept.inPages⟩, by rw [persists.frame]; exact saved⟩
  | persists =>
      refine ⟨⟨sound.named, sound.namesDiffer, sound.backed, sound.plain, sound.known,
        sound.inMemory, sound.inPages⟩, fun table schema found => ?_⟩
      have found : db.catalog[table]? = some schema := by
        rw [← loadTables_snapshot sound.named]
        exact found
      exact ⟨sound.named found, sound.namesDiffer found,
        sound.plain table (sound.backed table (Map.mem_of_getElem?_eq_some found))⟩
  | reopens db' options loaded imports =>
      have files : ∀ (stem : String) (bytes : List UInt8),
          db.directory.pages[stem]? = some bytes →
            ∃ pt : PageTable, pt.Kept codec ∧ pt.file = some bytes ∧ stem ∈ db.tables := by
        intro stem bytes found
        rw [StoredDatabase.directory, ExtTreeMap.getElem?_filterMap', Option.bind_eq_some_iff]
          at found
        obtain ⟨backend, present, file⟩ := found
        cases backend with
        | memory data => cases file
        | paged pt =>
            exact ⟨pt, sound.inPages present, file, Map.mem_of_getElem?_eq_some present⟩
      have agrees : db.directory.Agrees codec options := by
        refine ⟨saved, fun stem has => ?_, fun stem bytes found => ?_, imports⟩
        · rcases has with dat | pages
          · exact sound.plain stem (sound.known stem dat)
          · obtain ⟨bytes, found⟩ := Option.isSome_iff_exists.mp
              (ExtTreeMap.isSome_getElem?_iff_mem.mpr pages)
            obtain ⟨-, -, -, member⟩ := files stem bytes found
            exact sound.plain stem member
        · obtain ⟨pt, kept, file, -⟩ := files stem bytes found
          exact ⟨pt, kept, file⟩
      exact agrees.sound loaded

/-- **The databases that are reached** agree with their files. -/
theorem Operated.sound (operated : Operated codec db) : db.Sound codec := by
  suffices both : db.Sound codec ∧ db.CatalogSaved from both.1
  induction operated with
  | opened agrees loaded => exact agrees.sound loaded
  | step _ step ih => exact step.sound ih.1 ih.2

end Invariant

end Steps

section Sessions

/-- The database of a session, which holds its tables in memory. -/
def StoredDatabase.ofExecutor (s : Executor) : StoredDatabase where
  options := .default
  catalog := s.catalog
  tables := s.storage.tables.map fun _ => .memory
  indexes := s.indexes
  wal := s.storage.wal
  dat := (StorageEngine.loadAll s.storage.datFiles).map fun _ => .ok
  metaFile := s.metaFile
  activeWriteTxns := s.activeWriteTxns

/-- Whatever calls a session makes, its database agrees with its files. -/
theorem Called.sound {s : Executor} (called : Called s) (plain : s.storage.FileNames) :
    (StoredDatabase.ofExecutor s).Sound codec := by
  obtain ⟨defined, files⟩ := called.saveable
  have member (table : String) :
      table ∈ (StoredDatabase.ofExecutor s).tables ↔ table ∈ s.storage.tables :=
    ExtTreeMap.mem_map
  refine ⟨defined.named, defined.namesDiffer, fun table known => (member table).mpr
    (called.backed table known), fun table listed => plain table ((member table).mp listed),
    fun stem saved => (member stem).mpr ?_, fun _ _ _ => rfl, fun table pt found => ?_⟩
  · exact files.mem_tables plain (ExtTreeMap.mem_map.mp saved)
  · rw [StoredDatabase.ofExecutor, ExtTreeMap.getElem?_map, Option.map_eq_some_iff] at found
    obtain ⟨data, -, same⟩ := found
    cases same

end Sessions

end MoodengSQL
