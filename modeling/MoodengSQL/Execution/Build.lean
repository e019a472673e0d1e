import MoodengSQL.Execution.Undo

/-!
# Building indexes from stored rows

`CREATE INDEX` and `rebuild_all` build indexes by inserting the key of every
stored row. The result is exact, and the build is accepted when the rows differ
in the keys of every unique index.
-/

namespace MoodengSQL

open Std

/-- The rows after adding a list of rows. -/
def loadRows (entries : List (Nat × Row)) (rows : Nat → Option (List Value)) :
    Nat → Option (List Value) :=
  entries.foldl (fun rows entry => Function.update rows entry.1 (some entry.2.values)) rows

theorem loadRows_of_not_mem {entries : List (Nat × Row)} {rows : Nat → Option (List Value)}
    {rowId : Nat} (absent : rowId ∉ entries.map Prod.fst) :
    loadRows entries rows rowId = rows rowId := by
  induction entries generalizing rows with
  | nil => rfl
  | cons entry entries ih =>
      rw [List.map_cons, List.mem_cons, not_or] at absent
      exact (ih absent.2).trans (Function.update_of_ne absent.1 _ _)

theorem loadRows_of_mem {entries : List (Nat × Row)} {rows : Nat → Option (List Value)}
    (distinct : (entries.map Prod.fst).Nodup) {entry : Nat × Row} (member : entry ∈ entries) :
    loadRows entries rows entry.1 = some entry.2.values := by
  induction entries generalizing rows with
  | nil => cases member
  | cons first rest ih =>
      obtain ⟨fresh, distinct⟩ := List.nodup_cons.mp distinct
      rcases List.mem_cons.mp member with rfl | member
      · exact (loadRows_of_not_mem fresh).trans (Function.update_self _ _ _)
      · exact ih distinct member

/-- Loading a scan gives the rows of the table. -/
theorem loadRows_scan (storage : StorageEngine) (table : String) :
    loadRows (storage.scan table) (fun _ => none) = storage.contents.table table := by
  funext rowId
  unfold StorageEngine.scan Contents.table StorageEngine.contents StorageEngine.view tablesView
  cases storage.tables[table]? with
  | none => rfl
  | some data =>
      have keys : data.scan.map Prod.fst = data.rows.keys := ExtTreeMap.map_fst_toList_eq_keys
      dsimp only
      cases present : data.rows[rowId]? with
      | none =>
          refine loadRows_of_not_mem ?_
          rw [keys, ExtTreeMap.mem_keys]
          intro member
          rw [ExtTreeMap.mem_iff_isSome_getElem?, present] at member
          cases member
      | some row =>
          exact loadRows_of_mem (keys ▸ ExtTreeMap.nodup_keys)
            (ExtTreeMap.mem_toList_iff_getElem?_eq_some.mpr present)

section Build

variable {columnNames : List String} {index index' : BTreeIndex}
  {rows : Nat → Option (List Value)} {entries : List (Nat × Row)}

/-- A finished build is exact for the rows it went through. -/
theorem buildIndex_exact (exact : IndexExact index columnNames rows)
    (distinct : (entries.map Prod.fst).Nodup) (absent : ∀ entry ∈ entries, rows entry.1 = none)
    (built : buildIndex columnNames index entries = .ok index') :
    IndexExact index' columnNames (loadRows entries rows) ∧
      index'.definition = index.definition := by
  induction entries generalizing index rows with
  | nil =>
      cases built
      exact ⟨exact, rfl⟩
  | cons entry rest ih =>
      obtain ⟨rowId, row⟩ := entry
      obtain ⟨fresh, later⟩ := List.nodup_cons.mp distinct
      unfold buildIndex at built
      cases inserted : index.insert (keyValues index.columns row.values columnNames) rowId with
      | error e =>
          rw [inserted] at built
          cases built
      | ok next =>
          rw [inserted] at built
          obtain ⟨exact', same⟩ := ih
            (exact.insert (absent (rowId, row) List.mem_cons_self) inserted) later
            (fun other member => by
              have differ : other.1 ≠ rowId := fun same =>
                fresh (List.mem_map.mpr ⟨other, member, same⟩)
              rw [Function.update_of_ne differ]
              exact absent other (List.mem_cons_of_mem _ member)) built
          exact ⟨exact', same.trans (BTreeIndex.insert_eq_ok inserted).1⟩

/-- A build is accepted when the rows differ in the keys of the index. -/
theorem buildIndex_accepts (exact : IndexExact index columnNames rows)
    (distinct : (entries.map Prod.fst).Nodup) (absent : ∀ entry ∈ entries, rows entry.1 = none)
    (keys : index.unique → ∀ left right leftValues rightValues,
      loadRows entries rows left = some leftValues →
      loadRows entries rows right = some rightValues →
      index.keyOf columnNames leftValues = index.keyOf columnNames rightValues → left = right) :
    ∃ index', buildIndex columnNames index entries = .ok index' := by
  induction entries generalizing index rows with
  | nil => exact ⟨index, rfl⟩
  | cons entry rest ih =>
      obtain ⟨rowId, row⟩ := entry
      obtain ⟨fresh, later⟩ := List.nodup_cons.mp distinct
      obtain ⟨next, inserted⟩ := exact.accepts (by
        intro unique other stored present sameKey
        by_cases listed : other ∈ ((rowId, row) :: rest).map Prod.fst
        · obtain ⟨entry, member, rfl⟩ := List.mem_map.mp listed
          rw [absent entry member] at present
          cases present
        · have kept : loadRows ((rowId, row) :: rest) rows other = some stored :=
            (loadRows_of_not_mem listed).trans present
          have sameRow := keys unique other rowId stored row.values kept
            (loadRows_of_mem distinct List.mem_cons_self) sameKey
          exact listed (sameRow ▸ List.mem_cons_self))
      have definition := (BTreeIndex.insert_eq_ok inserted).1
      have sameUnique : next.unique = index.unique := congrArg IndexMeta.unique definition
      obtain ⟨index', built⟩ := ih
        (exact.insert (absent (rowId, row) List.mem_cons_self) inserted) later
        (fun other member => by
          have differ : other.1 ≠ rowId := fun same =>
            fresh (List.mem_map.mpr ⟨other, member, same⟩)
          rw [Function.update_of_ne differ]
          exact absent other (List.mem_cons_of_mem _ member))
        (by
          intro unique left right leftValues rightValues leftRow rightRow sameKey
          rw [IndexExact.keyOf_eq_of_definition definition] at sameKey
          exact keys (sameUnique ▸ unique) left right leftValues rightValues leftRow rightRow
            sameKey)
      refine ⟨index', ?_⟩
      unfold buildIndex
      rw [inserted]
      exact built

end Build

/-- An index of the given definition that is exact for the rows. -/
def BuiltIndex (definition : IndexMeta) (columnNames : List String)
    (rows : Nat → Option (List Value)) (index? : Option BTreeIndex) : Prop :=
  ∃ index, index? = some index ∧ index.definition = definition ∧
    IndexExact index columnNames rows

/-- Rows differ in the keys of a unique definition. -/
def KeysDiffer (definition : IndexMeta) (columnNames : List String)
    (rows : Nat → Option (List Value)) : Prop :=
  definition.unique → ∀ ⦃left right leftValues rightValues⦄, rows left = some leftValues →
    rows right = some rightValues →
      IndexKey.ofValues (keyValues definition.columns leftValues columnNames) =
        IndexKey.ofValues (keyValues definition.columns rightValues columnNames) → left = right

theorem scan_nodup (storage : StorageEngine) (table : String) :
    ((storage.scan table).map Prod.fst).Nodup := by
  unfold StorageEngine.scan
  cases storage.tables[table]? with
  | none => exact List.nodup_nil
  | some data =>
      have keys : data.scan.map Prod.fst = data.rows.keys := ExtTreeMap.map_fst_toList_eq_keys
      exact keys ▸ ExtTreeMap.nodup_keys

/-- An index built from a scan is exact for the table. -/
theorem buildIndex_scan {storage : StorageEngine} {table : String} {columnNames : List String}
    {name : String} {columns : List String} {unique : Bool} {index : BTreeIndex}
    (built : buildIndex columnNames (.new name columns unique) (storage.scan table) = .ok index) :
    IndexExact index columnNames (storage.contents.table table) ∧
      index.definition = { name, columns, unique } := by
  rw [← loadRows_scan]
  exact buildIndex_exact (.new name columns unique columnNames) (scan_nodup storage table)
    (fun _ _ => rfl) built

theorem buildIndex_scan_accepts {storage : StorageEngine} {table : String}
    {columnNames : List String} {definition : IndexMeta}
    (keys : KeysDiffer definition columnNames (storage.contents.table table)) :
    ∃ index, buildIndex columnNames
      (.new definition.name definition.columns definition.unique) (storage.scan table) =
        .ok index := by
  refine buildIndex_accepts (.new _ _ _ columnNames) (scan_nodup storage table)
    (fun _ _ => rfl) ?_
  rw [loadRows_scan]
  exact fun unique _ _ _ _ leftRow rightRow sameKey => keys unique leftRow rightRow sameKey

theorem createIndex_eq_ok {manager manager' : IndexManager} {table : String} {index : BTreeIndex}
    (created : manager.createIndex table index = .ok manager') (other name : String) :
    manager'.index? other name =
      if other = table ∧ name = index.name then some index else manager.index? other name := by
  unfold IndexManager.createIndex at created
  dsimp only at created
  split at created
  · cases created
  · cases created
    rw [IndexManager.index?_insert]
    by_cases here : other = table
    · subst here
      simp only [ExtTreeMap.getElem?_insert, Std.compare_eq_iff_eq, true_and, if_true]
      by_cases same : index.name = name
      · simp [same]
      · simp [same, Ne.symm same, IndexManager.index?]
    · simp [here]

theorem createIndex_accepts {manager : IndexManager} {table : String} {index : BTreeIndex}
    (absent : manager.index? table index.name = none) :
    ∃ manager', manager.createIndex table index = .ok manager' := by
  unfold IndexManager.createIndex
  dsimp only
  split
  · rename_i member
    rw [ExtTreeMap.mem_iff_isSome_getElem?] at member
    rw [IndexManager.index?] at absent
    rw [absent] at member
    cases member
  · exact ⟨_, rfl⟩

theorem createIndex_absent {manager manager' : IndexManager} {table : String} {index : BTreeIndex}
    (created : manager.createIndex table index = .ok manager') :
    manager.index? table index.name = none := by
  unfold IndexManager.createIndex at created
  dsimp only at created
  split at created
  · cases created
  · rename_i absent
    exact ExtTreeMap.getElem?_eq_none absent

/-- The manager has exactly the indexes the catalog defines. -/
def DefinitionsMatch (catalog : Catalog) (manager : IndexManager) : Prop :=
  ∀ table name, (manager.index? table name).map BTreeIndex.definition =
    catalog[table]?.bind fun schema => schema.indexes.find? (·.name = name)

/-- The index names of a table differ. -/
def NamesDiffer (catalog : Catalog) : Prop :=
  ∀ ⦃table : String⦄ ⦃schema : TableSchema⦄, catalog[table]? = some schema →
    (schema.indexes.map IndexMeta.name).Nodup

/-- The catalog's index names differ within a table, and the rows differ in the
keys of every unique definition. -/
def Rebuildable (catalog : Catalog) (contents : Contents) : Prop :=
  ∀ ⦃table schema⦄, catalog[table]? = some schema →
    (schema.indexes.map IndexMeta.name).Nodup ∧
      ∀ definition ∈ schema.indexes,
        KeysDiffer definition schema.colNames (contents.table table)

section Rebuild

variable {catalog : Catalog} {storage : StorageEngine} {manager : IndexManager}

private theorem rebuildIndexes_spec {table : String} {columnNames : List String}
    {definitions : List IndexMeta} (distinct : (definitions.map IndexMeta.name).Nodup)
    (keys : ∀ definition ∈ definitions,
      KeysDiffer definition columnNames (storage.contents.table table))
    (absent : ∀ name, manager.index? table name = none ∨ name ∉ definitions.map IndexMeta.name) :
    ∃ manager', rebuildIndexes table columnNames (storage.scan table) definitions manager =
        .ok manager' ∧
      (∀ definition ∈ definitions, BuiltIndex definition columnNames
        (storage.contents.table table) (manager'.index? table definition.name)) ∧
      ∀ other name, other ≠ table ∨ name ∉ definitions.map IndexMeta.name →
        manager'.index? other name = manager.index? other name := by
  induction definitions generalizing manager with
  | nil => exact ⟨manager, rfl, by simp, fun _ _ _ => rfl⟩
  | cons first rest ih =>
      obtain ⟨fresh, later⟩ := List.nodup_cons.mp distinct
      obtain ⟨index, built⟩ := buildIndex_scan_accepts (keys first List.mem_cons_self)
      obtain ⟨exact, definition⟩ := buildIndex_scan built
      have named : index.name = first.name := congrArg IndexMeta.name definition
      obtain ⟨next, created⟩ := createIndex_accepts (by
          rw [named]
          exact (absent first.name).resolve_right (by simp))
      have placed := createIndex_eq_ok created
      obtain ⟨manager', rebuilt, indexes, others⟩ := ih later
        (fun definition member => keys definition (List.mem_cons_of_mem _ member)) (by
          intro name
          by_cases listed : name ∈ rest.map IndexMeta.name
          · have differ : name ≠ first.name := fun same => fresh (same ▸ listed)
            rw [placed, if_neg (by simp [named, differ])]
            exact .inl ((absent name).resolve_right (by simp [List.mem_map.mp listed]))
          · exact .inr listed)
      refine ⟨manager', ?_, ?_, ?_⟩
      · simp only [rebuildIndexes, bind, Except.bind, built, created, rebuilt]
      · intro other member
        rcases List.mem_cons.mp member with rfl | member
        · rw [others table other.name (.inr fresh), placed, if_pos ⟨rfl, named.symm⟩]
          exact ⟨index, rfl, definition, exact⟩
        · exact indexes other member
      · intro other name outside
        rw [others other name (outside.imp_right fun absent inside =>
          absent (List.mem_cons_of_mem _ inside)), placed, if_neg ?_]
        rintro ⟨rfl, same⟩
        rcases outside with elsewhere | absent
        · exact elsewhere rfl
        · exact absent (by rw [same, named]; exact List.mem_cons_self)

private theorem rebuildTables_spec (rebuildable : Rebuildable catalog storage.contents)
    {tables : List String} (distinct : tables.Nodup) (known : ∀ table ∈ tables, table ∈ catalog)
    (absent : ∀ table ∈ tables, ∀ name, manager.index? table name = none) :
    ∃ manager', rebuildTables catalog storage tables manager = .ok manager' ∧
      (∀ table ∈ tables, ∀ schema, catalog[table]? = some schema →
        (∀ definition ∈ schema.indexes, BuiltIndex definition schema.colNames
          (storage.contents.table table) (manager'.index? table definition.name)) ∧
        ∀ name, name ∉ schema.indexes.map IndexMeta.name →
          manager'.index? table name = none) ∧
      ∀ table ∉ tables, ∀ name, manager'.index? table name = manager.index? table name := by
  induction tables generalizing manager with
  | nil => exact ⟨manager, rfl, by simp, fun _ _ _ => rfl⟩
  | cons first rest ih =>
      obtain ⟨fresh, later⟩ := List.nodup_cons.mp distinct
      obtain ⟨schema, found⟩ := Option.isSome_iff_exists.mp
        (ExtTreeMap.mem_iff_isSome_getElem?.mp (known first List.mem_cons_self))
      obtain ⟨names, keys⟩ := rebuildable found
      obtain ⟨next, indexed, indexes, others⟩ := rebuildIndexes_spec names keys
        fun name => .inl (absent first List.mem_cons_self name)
      obtain ⟨manager', rebuilt, rebuiltTables, untouched⟩ := ih later
        (fun table member => known table (List.mem_cons_of_mem _ member)) (by
          intro table member name
          have differ : table ≠ first := fun same => fresh (same ▸ member)
          rw [others table name (.inl differ)]
          exact absent table (List.mem_cons_of_mem _ member) name)
      refine ⟨manager', ?_, ?_, ?_⟩
      · have schema? : catalog.getTable first = .ok schema := getTable_eq_ok.mpr found
        simp only [rebuildTables, bind, Except.bind, schema?, indexed, rebuilt]
      · intro table member other otherFound
        rcases List.mem_cons.mp member with rfl | member
        · rw [found] at otherFound
          cases otherFound
          refine ⟨fun definition inside => ?_, fun name outside => ?_⟩
          · rw [untouched table fresh]
            exact indexes definition inside
          · rw [untouched table fresh, others table name (.inr outside)]
            exact absent table List.mem_cons_self name
        · exact rebuiltTables table member other otherFound
      · intro table outside name
        rw [List.mem_cons, not_or] at outside
        rw [untouched table outside.2, others table name (.inl outside.1)]

theorem find?_definition {definitions : List IndexMeta}
    (distinct : (definitions.map IndexMeta.name).Nodup) {definition : IndexMeta}
    (member : definition ∈ definitions) :
    definitions.find? (·.name = definition.name) = some definition := by
  induction definitions with
  | nil => cases member
  | cons first rest ih =>
      obtain ⟨fresh, later⟩ := List.nodup_cons.mp distinct
      rcases List.mem_cons.mp member with rfl | member
      · simp
      · have differ : first.name ≠ definition.name := fun same =>
          fresh (List.mem_map.mpr ⟨definition, member, same.symm⟩)
        rw [List.find?_cons_of_neg (by simpa using differ), ih later member]

/-- **Rebuilding is accepted and gives the defined indexes, exact for the rows.** -/
theorem rebuildAll_spec (rebuildable : Rebuildable catalog storage.contents) :
    ∃ manager, rebuildAll catalog storage = .ok manager ∧ DefinitionsMatch catalog manager ∧
      Agree catalog manager storage.contents := by
  have none : ∀ table ∈ catalog.listTables, ∀ name,
      IndexManager.index? ∅ table name = Option.none := by
    simp [IndexManager.index?]
  obtain ⟨manager, rebuilt, tables, others⟩ := rebuildTables_spec rebuildable ExtTreeMap.nodup_keys
    (fun _ member => ExtTreeMap.mem_keys.mp member) none
  have listed : ∀ {table schema}, catalog[table]? = some schema → table ∈ catalog.listTables :=
    fun found => ExtTreeMap.mem_keys.mpr (Map.mem_of_getElem?_eq_some found)
  refine ⟨manager, rebuilt, fun table name => ?_, ?_⟩
  · cases found : catalog[table]? with
    | none =>
        have outside : table ∉ catalog.listTables := by
          intro member
          have := ExtTreeMap.mem_iff_isSome_getElem?.mp (ExtTreeMap.mem_keys.mp member)
          rw [found] at this
          cases this
        rw [others table outside]
        simp [IndexManager.index?]
    | some schema =>
        obtain ⟨indexes, rest⟩ := tables table (listed found) schema found
        rw [Option.bind_some]
        by_cases defined : name ∈ schema.indexes.map IndexMeta.name
        · obtain ⟨definition, member, rfl⟩ := List.mem_map.mp defined
          obtain ⟨index, placed, same, -⟩ := indexes definition member
          rw [placed, Option.map_some, same, find?_definition (rebuildable found).1 member]
        · rw [rest name defined, Option.map_none, eq_comm, List.find?_eq_none]
          intro definition member
          simp only [decide_eq_true_eq]
          exact fun same => defined (List.mem_map.mpr ⟨definition, member, same⟩)
  · intro table schema name index found placed
    obtain ⟨indexes, rest⟩ := tables table (listed found) schema found
    by_cases defined : name ∈ schema.indexes.map IndexMeta.name
    · obtain ⟨definition, member, rfl⟩ := List.mem_map.mp defined
      obtain ⟨built, placed', -, exact⟩ := indexes definition member
      rw [placed] at placed'
      cases placed'
      exact exact
    · rw [rest name defined] at placed
      cases placed

/-- An index that was built from rows distinguishes them by its key. -/
theorem keysDiffer_of_buildIndex {table : String} {columnNames : List String}
    {definition : IndexMeta} {index : BTreeIndex}
    (built : buildIndex columnNames
      (.new definition.name definition.columns definition.unique) (storage.scan table) =
        .ok index) : KeysDiffer definition columnNames (storage.contents.table table) := by
  obtain ⟨exact, same⟩ := buildIndex_scan built
  intro unique left right leftValues rightValues leftRow rightRow sameKey
  have columns : index.columns = definition.columns := congrArg IndexMeta.columns same
  have isUnique : index.unique = definition.unique := congrArg IndexMeta.unique same
  apply exact.eq_of_key_eq (isUnique.trans unique) leftRow rightRow
  rw [BTreeIndex.keyOf, BTreeIndex.keyOf, columns]
  exact sameKey

private theorem rebuildIndexes_keysDiffer {table : String} {columnNames : List String}
    {definitions : List IndexMeta} {manager' : IndexManager}
    (rebuilt : rebuildIndexes table columnNames (storage.scan table) definitions manager =
      .ok manager') :
    ∀ definition ∈ definitions,
      KeysDiffer definition columnNames (storage.contents.table table) := by
  induction definitions generalizing manager with
  | nil => exact fun _ member => absurd member List.not_mem_nil
  | cons first rest ih =>
      simp only [rebuildIndexes, bind, Except.bind] at rebuilt
      split at rebuilt
      · cases rebuilt
      · rename_i index built
        split at rebuilt
        · cases rebuilt
        · intro definition member
          rcases List.mem_cons.mp member with rfl | later
          · exact keysDiffer_of_buildIndex built
          · exact ih rebuilt definition later

private theorem rebuildIndexes_names {table : String} {columnNames : List String}
    {definitions : List IndexMeta} {manager' : IndexManager}
    (rebuilt : rebuildIndexes table columnNames (storage.scan table) definitions manager =
      .ok manager') :
    (definitions.map IndexMeta.name).Nodup ∧
      ∀ definition ∈ definitions, manager.index? table definition.name = none := by
  induction definitions generalizing manager with
  | nil => exact ⟨List.nodup_nil, nofun⟩
  | cons first rest ih =>
      simp only [rebuildIndexes, bind, Except.bind] at rebuilt
      split at rebuilt
      · cases rebuilt
      · rename_i index built
        split at rebuilt
        · cases rebuilt
        · rename_i next created
          obtain ⟨distinct, absent⟩ := ih rebuilt
          have named : index.name = first.name := congrArg IndexMeta.name (buildIndex_scan built).2
          have placed := createIndex_eq_ok created table
          have differ : ∀ definition ∈ rest, definition.name ≠ first.name := by
            intro definition member same
            have found := absent definition member
            rw [placed, if_pos ⟨rfl, same.trans named.symm⟩] at found
            cases found
          refine ⟨List.nodup_cons.mpr ⟨fun listed => ?_, distinct⟩, fun definition member => ?_⟩
          · obtain ⟨definition, member, same⟩ := List.mem_map.mp listed
            exact differ definition member same
          · rcases List.mem_cons.mp member with rfl | member
            · exact named ▸ createIndex_absent created
            · have found := absent definition member
              rwa [placed, if_neg fun same =>
                differ definition member (same.2.trans named)] at found

private theorem rebuildTables_rebuildable {tables : List String} {manager' : IndexManager}
    (rebuilt : rebuildTables catalog storage tables manager = .ok manager') {table : String}
    (listed : table ∈ tables) {schema : TableSchema} (known : catalog[table]? = some schema) :
    (schema.indexes.map IndexMeta.name).Nodup ∧ ∀ definition ∈ schema.indexes,
      KeysDiffer definition schema.colNames (storage.contents.table table) := by
  induction tables generalizing manager with
  | nil => cases listed
  | cons first rest ih =>
      simp only [rebuildTables, bind, Except.bind] at rebuilt
      split at rebuilt
      · cases rebuilt
      · rename_i found foundSchema
        split at rebuilt
        · cases rebuilt
        · rename_i next indexed
          rcases List.mem_cons.mp listed with rfl | later
          · rw [getTable_eq_ok.mp foundSchema] at known
            cases known
            exact ⟨(rebuildIndexes_names indexed).1, rebuildIndexes_keysDiffer indexed⟩
          · exact ih rebuilt later

/-- **Rebuilding is refused unless the index names of a table differ and its rows
differ in the keys** of every unique definition. -/
theorem rebuildable_of_rebuildAll {manager' : IndexManager}
    (rebuilt : rebuildAll catalog storage = .ok manager') :
    Rebuildable catalog storage.contents := fun _ _ known =>
  rebuildTables_rebuildable rebuilt
    (ExtTreeMap.mem_keys.mpr (Map.mem_of_getElem?_eq_some known)) known

/-- Rows that differ in the keys of the manager's unique indexes can be rebuilt. -/
theorem Distinguishes.rebuildable {contents : Contents}
    (distinct : Distinguishes catalog manager contents)
    (definitions : DefinitionsMatch catalog manager)
    (names : NamesDiffer catalog) : Rebuildable catalog contents := by
  intro table schema found
  refine ⟨names found, fun definition member unique => ?_⟩
  have defined := definitions table definition.name
  rw [found, Option.bind_some, find?_definition (names found) member] at defined
  obtain ⟨index, placed, same⟩ := Option.map_eq_some_iff.mp defined
  subst same
  exact distinct found placed unique

end Rebuild

end MoodengSQL
