import MoodengSQL.Replay.Open

/-!
# What the files hold

A checkpoint writes every table to its file, so that the files hold the rows in
memory; saving the catalog writes a snapshot from which opening reads the same
catalog.
-/

namespace MoodengSQL

open Foundation Std

/-- The files that opening takes for tables belong to tables in memory. -/
def StorageEngine.FilesKnown (storage : StorageEngine) : Prop :=
  ∀ path ∈ storage.datFiles, tableOfPath path ≠ none →
    ∃ table ∈ storage.tables, tablePath table = path

section Known

variable {storage : StorageEngine}

/-- Tables are only added, and no file is written. -/
theorem StorageEngine.FilesKnown.grow (known : storage.FilesKnown)
    {tables : Map String TableData} {wal : WriteAheadLog}
    (grows : ∀ name ∈ storage.tables, name ∈ tables) :
    StorageEngine.FilesKnown { storage with tables, wal } :=
  fun path member taken =>
    have ⟨table, inMemory, leads⟩ := known path member taken
    ⟨table, grows table inMemory, leads⟩

theorem StorageEngine.FilesKnown.ensureTable (known : storage.FilesKnown) (table : String) :
    (storage.ensureTable table).FilesKnown :=
  known.grow fun _ member => ExtTreeMap.mem_insertIfNew.mpr (.inr member)

/-- Dropping a table removes the file its name leads to. -/
theorem StorageEngine.FilesKnown.dropTable (known : storage.FilesKnown) (table : String) :
    (storage.dropTable table).FilesKnown := by
  intro path member taken
  obtain ⟨differ, member⟩ := ExtTreeMap.mem_erase.mp member
  obtain ⟨other, inMemory, rfl⟩ := known path member taken
  refine ⟨other, ExtTreeMap.mem_erase.mpr ⟨fun same => differ ?_, inMemory⟩, rfl⟩
  rw [Std.compare_eq_iff_eq] at same ⊢
  rw [same]

/-- Every file that is taken for a table is opened. -/
theorem StorageEngine.filesKnown_open (wal : WriteAheadLog)
    (datFiles : Map String (FileImage TableData)) :
    (StorageEngine.open wal datFiles).FilesKnown := by
  intro path member taken
  obtain ⟨table, named⟩ := Option.ne_none_iff_exists'.mp taken
  obtain ⟨entry, nonempty, rfl⟩ := tableOfPath_eq_some.mp named
  refine ⟨table, ExtTreeMap.isSome_getElem?_iff_mem.mp ?_, tablePath_of_isEntry entry⟩
  change (loadAll datFiles)[table]?.isSome = true
  rw [getElem?_loadAll, if_pos ⟨entry, nonempty⟩, tablePath_of_isEntry entry, Option.isSome_map]
  exact ExtTreeMap.isSome_getElem?_iff_mem.mpr member

end Known

/-- The names of the tables can be those of files. -/
def StorageEngine.FileNames (storage : StorageEngine) : Prop :=
  ∀ table ∈ storage.tables, isFileName table = true

section Tables

/-- Writing a table writes the file its name leads to. -/
theorem getElem?_persistTable (storage : StorageEngine) (table path : String) :
    (storage.persistTable table).datFiles[path]? =
      if path = tablePath table then
        (storage.tables[table]?.map .written).or storage.datFiles[path]?
      else storage.datFiles[path]? := by
  unfold StorageEngine.persistTable
  cases storage.tables[table]? with
  | none => simp
  | some data =>
      simp only [ExtTreeMap.getElem?_insert, Std.compare_eq_iff_eq, eq_comm (a := tablePath table),
        Option.map_some, Option.some_or]

/-- The file of a table after some tables were written. -/
theorem getElem?_persistTables {names : List String}
    (plain : ∀ name ∈ names, isFileName name = true) (storage : StorageEngine) {table : String}
    (named : isFileName table = true) :
    (names.foldl StorageEngine.persistTable storage).datFiles[tablePath table]? =
      if table ∈ names then
        (storage.tables[table]?.map .written).or storage.datFiles[tablePath table]?
      else storage.datFiles[tablePath table]? := by
  induction names generalizing storage with
  | nil => simp
  | cons name names ih =>
      obtain ⟨first, later⟩ := List.forall_mem_cons.mp plain
      rw [List.foldl_cons, ih later, StorageEngine.tables_persistTable, getElem?_persistTable]
      by_cases here : table = name
      · subst here
        cases storage.tables[table]? <;> simp
      · have apart : tablePath table ≠ tablePath name := mt (tablePath_inj named first).mp here
        simp [here, apart]

/-- Only the files of the tables are written. -/
theorem filesKnown_persistTable {storage : StorageEngine} (known : storage.FilesKnown)
    (table : String) : (storage.persistTable table).FilesKnown := by
  intro path member taken
  rw [StorageEngine.tables_persistTable]
  rw [← ExtTreeMap.isSome_getElem?_iff_mem, getElem?_persistTable] at member
  by_cases here : path = tablePath table ∧ table ∈ storage.tables
  · exact ⟨table, here.2, here.1.symm⟩
  · refine known path (ExtTreeMap.isSome_getElem?_iff_mem.mp ?_) taken
    split at member
    · rename_i same
      rwa [ExtTreeMap.getElem?_eq_none fun inside => here ⟨same, inside⟩, Option.map_none,
        Option.none_or] at member
    · exact member

theorem filesKnown_persistTables (names : List String) {storage : StorageEngine}
    (known : storage.FilesKnown) :
    (names.foldl StorageEngine.persistTable storage).FilesKnown := by
  induction names generalizing storage with
  | nil => exact known
  | cons name names ih => exact ih (filesKnown_persistTable known name)

variable {storage : StorageEngine}

/-- Opening finds the tables that are in the files, each under its name. -/
theorem diskContents_eq {datFiles : Map String (FileImage TableData)} {key : RowKey}
    (named : isFileName key.1 = true) :
    diskContents datFiles key = datFiles[tablePath key.1]?.bind fun image =>
      ((StorageEngine.readTableFile image).rows[key.2]?).map Row.values := by
  unfold diskContents tablesView
  rw [StorageEngine.getElem?_loadAll_of_isFileName named]
  cases datFiles[tablePath key.1]? <;> rfl

/-- A table that opening finds is one of those in memory, if these have the names of
files. -/
theorem StorageEngine.FilesKnown.mem_tables (known : storage.FilesKnown)
    (plain : storage.FileNames) {table : String}
    (loaded : table ∈ StorageEngine.loadAll storage.datFiles) :
    table ∈ storage.tables := by
  rw [← ExtTreeMap.isSome_getElem?_iff_mem, StorageEngine.getElem?_loadAll] at loaded
  split at loaded
  · rename_i entry
    rw [Option.isSome_map] at loaded
    have taken : tableOfPath (tablePath table) ≠ none := by
      rw [tableOfPath_eq_some.mpr ⟨entry.1, entry.2, tablePath_of_isEntry entry.1⟩]
      exact Option.some_ne_none table
    obtain ⟨other, member, same⟩ :=
      known _ (ExtTreeMap.isSome_getElem?_iff_mem.mp loaded) taken
    rw [tablePath_of_isEntry entry.1,
      tablePath_of_isEntry (isEntry_of_isFileName (plain other member)),
      String.append_left_inj] at same
    exact same ▸ member
  · cases loaded

/-- Writing every table saves the rows in memory. -/
theorem diskContents_persistTables (known : storage.FilesKnown) (plain : storage.FileNames)
    {names : List String} (all : ∀ table, table ∈ names ↔ table ∈ storage.tables) :
    diskContents (names.foldl StorageEngine.persistTable storage).datFiles = storage.contents := by
  have listed : ∀ name ∈ names, isFileName name = true := fun name member =>
    plain name ((all name).mp member)
  have files : StorageEngine.FilesKnown (names.foldl StorageEngine.persistTable storage) :=
    filesKnown_persistTables names known
  have tables := (StorageEngine.frame_persistTables names storage).1
  funext key
  by_cases member : key.1 ∈ storage.tables
  · obtain ⟨data, found⟩ := Option.isSome_iff_exists.mp
      (ExtTreeMap.isSome_getElem?_iff_mem.mpr member)
    rw [diskContents_eq (plain key.1 member), getElem?_persistTables listed storage
      (plain key.1 member), if_pos ((all key.1).mpr member), found]
    unfold StorageEngine.contents StorageEngine.view tablesView
    rw [found]
    rfl
  · have absent : key.1 ∉ StorageEngine.loadAll
        (names.foldl StorageEngine.persistTable storage).datFiles := fun loaded => by
      have within := files.mem_tables (by rw [StorageEngine.FileNames, tables]; exact plain) loaded
      rw [tables] at within
      exact member within
    unfold diskContents StorageEngine.contents StorageEngine.view tablesView
    rw [ExtTreeMap.getElem?_eq_none absent, ExtTreeMap.getElem?_eq_none member]

variable [Runtime]

/-- A checkpoint writes all tables, in some order. -/
theorem mem_tableNames {table : String} :
    table ∈ Runtime.hashOrder.order "tables" storage.tables.keys ↔ table ∈ storage.tables :=
  (Runtime.hashOrder.perm "tables" storage.tables.keys).mem_iff.trans ExtTreeMap.mem_keys

theorem filesKnown_checkpoint (known : storage.FilesKnown) : storage.checkpoint.FilesKnown :=
  filesKnown_persistTables _ known

/-- **A checkpoint saves the rows in memory** if the tables have the names of files. -/
theorem diskContents_checkpoint (known : storage.FilesKnown) (plain : storage.FileNames) :
    diskContents storage.checkpoint.datFiles = storage.contents :=
  diskContents_persistTables known plain fun _ => mem_tableNames

omit [Runtime] in
/-- Dropping a table drops its saved rows. -/
theorem diskContents_dropTable (storage : StorageEngine) {table : String}
    (named : isFileName table = true) :
    diskContents (storage.dropTable table).datFiles =
      fun key => if key.1 = table then none else diskContents storage.datFiles key := by
  funext key
  unfold diskContents StorageEngine.dropTable tablesView
  simp only [StorageEngine.getElem?_loadAll, ExtTreeMap.getElem?_erase, Std.compare_eq_iff_eq]
  by_cases here : key.1 = table
  · simp [here]
  · by_cases entry : isEntry key.1 = true ∧ key.1 ≠ ""
    · have apart : tablePath table ≠ tablePath key.1 := by
        rw [tablePath_of_isEntry entry.1, tablePath_of_isEntry (isEntry_of_isFileName named), Ne,
          String.append_left_inj]
        exact Ne.symm here
      simp [here, apart]
    · simp [here, entry]

end Tables

section Catalog

private theorem loadTables_of_not_mem {entries : List (String × TableSchema)} {table : String}
    (named : ∀ entry ∈ entries, entry.2.name = entry.1) (absent : table ∉ entries.map Prod.fst)
    (catalog : Catalog) :
    (catalog.loadTables (entries.map Prod.snd))[table]? = catalog[table]? := by
  induction entries generalizing catalog with
  | nil => rfl
  | cons entry rest ih =>
      obtain ⟨differ, absent⟩ := not_or.mp (mt List.mem_cons.mpr absent)
      have later := ih (fun other member => named other (List.mem_cons_of_mem _ member)) absent
        (catalog.insert entry.2.name entry.2)
      rw [getElem?_insertTable, named entry List.mem_cons_self, if_neg differ] at later
      refine Eq.trans ?_ later
      rw [Catalog.loadTables, List.map_cons, List.foldl_cons, named entry List.mem_cons_self]
      rfl

private theorem loadTables_of_mem {entries : List (String × TableSchema)}
    (named : ∀ entry ∈ entries, entry.2.name = entry.1) (distinct : (entries.map Prod.fst).Nodup)
    {table : String} {schema : TableSchema} (member : (table, schema) ∈ entries)
    (catalog : Catalog) :
    (catalog.loadTables (entries.map Prod.snd))[table]? = some schema := by
  induction entries generalizing catalog with
  | nil => cases member
  | cons entry rest ih =>
      obtain ⟨fresh, distinct⟩ := List.nodup_cons.mp distinct
      have rest_named : ∀ other ∈ rest, other.2.name = other.1 :=
        fun other member => named other (List.mem_cons_of_mem _ member)
      rcases List.mem_cons.mp member with same | later
      · subst same
        refine (loadTables_of_not_mem rest_named fresh
          (catalog.insert schema.name schema)).trans ?_
        have name := named _ List.mem_cons_self
        rw [getElem?_insertTable, if_pos name.symm]
      · exact ih rest_named distinct later _

/-- **Opening reads back the catalog that was saved.** -/
theorem loadTables_snapshot {catalog : Catalog}
    (named : ∀ ⦃table : String⦄ ⦃schema : TableSchema⦄, catalog[table]? = some schema →
      schema.name = table) :
    Catalog.loadTables ∅ catalog.snapshot = catalog := by
  have entriesNamed : ∀ entry ∈ catalog.toList, entry.2.name = entry.1 := fun entry member =>
    named (ExtTreeMap.mem_toList_iff_getElem?_eq_some.mp member)
  have distinct : (catalog.toList.map Prod.fst).Nodup := by
    rw [ExtTreeMap.map_fst_toList_eq_keys]
    exact ExtTreeMap.nodup_keys
  refine ExtTreeMap.ext_getElem? fun table => ?_
  cases found : catalog[table]? with
  | some schema =>
      exact loadTables_of_mem entriesNamed distinct
        (ExtTreeMap.mem_toList_iff_getElem?_eq_some.mpr found) _
  | none =>
      refine (loadTables_of_not_mem entriesNamed (fun listed => ?_) ∅).trans
        ExtTreeMap.getElem?_empty
      rw [ExtTreeMap.map_fst_toList_eq_keys, ExtTreeMap.mem_keys] at listed
      have present := ExtTreeMap.isSome_getElem?_iff_mem.mpr listed
      rw [found] at present
      cases present

end Catalog

end MoodengSQL
