import MoodengSQL.Execution.Build

/-!
# Catalog, indexes and rows stay consistent

The invariant of the engine in memory: the manager has the indexes the catalog
defines, each exact for the rows of its table, and tables outside the catalog
have neither. With it goes what the session remembers of its transaction. Every
session step and every schema step outside a transaction keeps both.
-/

namespace MoodengSQL

open Foundation Foundation.Effect Relation Std

/-- A session inside an explicit transaction. -/
def Session.explicit (txnId : Nat) (undo : List UndoRecord) : Session :=
  { transaction := { active := true, txnId := some txnId, undo }, autoCommit := false }

/-- A session inside the transaction of a single statement. -/
def Session.automatic (txnId : Nat) : Session :=
  { transaction := { active := true, txnId := some txnId, undo := [] }, autoCommit := true }

/-- The catalog keeps every schema under its name, with indexes of different
names, and the manager has the indexes it defines. -/
structure Defined (catalog : Catalog) (manager : IndexManager) : Prop where
  named : ∀ ⦃table : String⦄ ⦃schema : TableSchema⦄, catalog[table]? = some schema →
    schema.name = table
  namesDiffer : NamesDiffer catalog
  definitions : DefinitionsMatch catalog manager

/-- Catalog, indexes and rows agree. -/
structure Consistent (s : Executor) : Prop where
  named : ∀ ⦃table : String⦄ ⦃schema : TableSchema⦄, s.catalog[table]? = some schema →
    schema.name = table
  namesDiffer : NamesDiffer s.catalog
  definitions : DefinitionsMatch s.catalog s.indexes
  agree : Agree s.catalog s.indexes s.storage.contents
  noStrayRows : ∀ ⦃table : String⦄, s.catalog[table]? = none → ∀ rowId,
    s.storage.contents (table, rowId) = none

/-- The rows the session's transaction would be rolled back to. A transaction
of a single statement keeps no undo records. -/
inductive Tracks (s : Executor) : Contents → Prop
  | idle (session : s.session = .new) : Tracks s s.storage.contents
  | explicit {txnId : Nat} {undo : List UndoRecord} {start : Contents}
      (session : s.session = .explicit txnId undo)
      (chain : UndoChain s.catalog s.indexes start undo s.storage.contents) : Tracks s start
  | automatic {txnId : Nat} {start : Contents} (session : s.session = .automatic txnId) :
      Tracks s start

theorem Consistent.defined {s : Executor} (consistent : Consistent s) :
    Defined s.catalog s.indexes :=
  ⟨consistent.named, consistent.namesDiffer, consistent.definitions⟩

theorem Consistent.rebuildable {s : Executor} (consistent : Consistent s) :
    Rebuildable s.catalog s.storage.contents :=
  consistent.agree.distinguishes.rebuildable consistent.definitions consistent.namesDiffer

theorem DefinitionsMatch.of_sameDefinitions {catalog : Catalog} {manager manager' : IndexManager}
    (definitions : DefinitionsMatch catalog manager) (same : SameDefinitions manager manager') :
    DefinitionsMatch catalog manager' :=
  fun table name => (same table name).trans (definitions table name)

/-- A state with the same catalog, rows and indexes is as consistent. -/
theorem Consistent.congr {s s' : Executor} (consistent : Consistent s)
    (catalog : s'.catalog = s.catalog) (tables : s'.storage.tables = s.storage.tables)
    (indexes : s'.indexes = s.indexes) : Consistent s' := by
  have contents : s'.storage.contents = s.storage.contents := by
    unfold StorageEngine.contents StorageEngine.view
    rw [tables]
  constructor
  · exact catalog ▸ consistent.named
  · exact catalog ▸ consistent.namesDiffer
  · rw [catalog, indexes]
    exact consistent.definitions
  · rw [catalog, indexes, contents]
    exact consistent.agree
  · rw [catalog, contents]
    exact consistent.noStrayRows

/-- A state with the same session, catalog, rows and indexes tracks the same rows. -/
theorem Tracks.congr {s s' : Executor} {start : Contents} (tracks : Tracks s start)
    (session : s'.session = s.session) (catalog : s'.catalog = s.catalog)
    (contents : s'.storage.contents = s.storage.contents) (indexes : s'.indexes = s.indexes) :
    Tracks s' start := by
  cases tracks with
  | idle idle =>
      rw [← contents]
      exact .idle (session.trans idle)
  | explicit explicit chain =>
      refine .explicit (session.trans explicit) ?_
      rw [catalog, indexes, contents]
      exact chain
  | automatic automatic => exact .automatic (session.trans automatic)

section Rows

variable [Runtime] {s s' : Executor} {txnId : Nat} {key : RowKey} {change : RowChange}

theorem RowStep.sameDefinitions (step : RowStep txnId key change s s') :
    SameDefinitions s.indexes s'.indexes := by
  obtain ⟨schema, -, reindexed⟩ := step.reindexed
  exact reindexed.sameDefinitions

theorem RowStep.current_contents (step : RowStep txnId key change s s') :
    s.storage.contents key = change.before.map Row.values := by
  rw [StorageEngine.contents, step.current]

/-- A row step keeps the indexes in agreement with the rows. -/
theorem Agree.rowStep (agree : Agree s.catalog s.indexes s.storage.contents)
    (step : RowStep txnId key change s s') :
    Agree s'.catalog s'.indexes s'.storage.contents := by
  obtain ⟨schema, known, reindexed⟩ := step.reindexed
  rw [step.catalog, step.contents]
  exact agree.reindexed known step.current_contents reindexed

/-- A row step keeps catalog, indexes and rows consistent. -/
theorem Consistent.rowStep (consistent : Consistent s) (step : RowStep txnId key change s s') :
    Consistent s' := by
  obtain ⟨schema, known, -⟩ := step.reindexed
  refine ⟨step.catalog ▸ consistent.named, step.catalog ▸ consistent.namesDiffer, ?_,
    consistent.agree.rowStep step, ?_⟩
  · rw [step.catalog]
    exact consistent.definitions.of_sameDefinitions step.sameDefinitions
  · intro table unknown rowId
    rw [step.catalog] at unknown
    have differ : (table, rowId) ≠ key := by
      rintro rfl
      rw [known] at unknown
      cases unknown
    rw [step.contents, Function.update_of_ne differ]
    exact consistent.noStrayRows unknown rowId

/-- A row step inside a transaction keeps the rows to roll back to. -/
theorem Tracks.rowStep {start : Contents} (tracks : Tracks s start)
    (agree : Agree s.catalog s.indexes s.storage.contents)
    (running : s.session.transaction.txnId = some txnId)
    (step : RowStep txnId key change s s') : Tracks s' start := by
  obtain ⟨schema, known, reindexed⟩ := step.reindexed
  have session := step.session
  cases tracks with
  | idle idle =>
      rw [idle] at running
      cases running
  | explicit explicit chain =>
      refine .explicit (session.trans (by rw [explicit]; rfl)) ?_
      have longer := chain.snoc known step.current_contents agree.distinguishes
      rw [step.catalog, step.contents]
      exact longer.of_sameDefinitions step.sameDefinitions
  | automatic automatic =>
      exact .automatic (session.trans (by rw [automatic]; rfl))

theorem RowStep.running (step : RowStep txnId key change s s')
    (running : s.session.transaction.txnId = some txnId) :
    s'.session.transaction.txnId = some txnId := by
  rw [step.session, (Session.recordUndo_txnId _ _).1, running]

/-- Row steps keep consistency and the rows to roll back to. -/
theorem Consistent.rowSteps {start : Contents}
    (steps : ReflTransGen (SomeRowStep txnId) s s') (consistent : Consistent s)
    (tracks : Tracks s start) (running : s.session.transaction.txnId = some txnId) :
    Consistent s' ∧ Tracks s' start ∧ s'.session.transaction.txnId = some txnId := by
  induction steps with
  | refl => exact ⟨consistent, tracks, running⟩
  | tail _ step ih =>
      obtain ⟨key, change, step⟩ := step
      obtain ⟨consistent, tracks, running⟩ := ih
      exact ⟨consistent.rowStep step, tracks.rowStep consistent.agree running step,
        step.running running⟩

/-- Row steps keep the mode of the session. -/
theorem autoCommit_rowSteps (steps : ReflTransGen (SomeRowStep txnId) s s') :
    s'.session.autoCommit = s.session.autoCommit := by
  induction steps with
  | refl => rfl
  | tail _ step ih =>
      obtain ⟨key, change, step⟩ := step
      rw [step.session, (Session.recordUndo_txnId _ _).2.2, ih]

end Rows

section Steps

variable [Runtime] {s s' : Executor} {start : Contents}

omit [Runtime] in
theorem Consistent.opened (consistent : Consistent s) (autoCommit : Bool) :
    Consistent (s.opened autoCommit) := consistent.congr rfl rfl rfl

omit [Runtime] in
theorem Consistent.committed (consistent : Consistent s) (txnId : Nat) :
    Consistent (s.committed txnId) := consistent.congr rfl rfl rfl

omit [Runtime] in
theorem Tracks.opened (s : Executor) (autoCommit : Bool) :
    Tracks (s.opened autoCommit) s.storage.contents := by
  cases autoCommit with
  | false => exact .explicit rfl .nil
  | true => exact .automatic rfl

omit [Runtime] in
theorem Tracks.committed (s : Executor) (txnId : Nat) :
    Tracks (s.committed txnId) s.storage.contents := .idle rfl

/-- A statement on rows keeps the engine consistent. -/
theorem Consistent.writeStep (consistent : Consistent s) (tracks : Tracks s start)
    (step : WriteStep s s') : Consistent s' ∧ ∃ start, Tracks s' start := by
  cases step with
  | read => exact ⟨consistent, start, tracks⟩
  | @write txnId entered changed _ enters rows leaves =>
      obtain ⟨consistent, start, tracks, running⟩ : Consistent entered ∧ ∃ start,
          Tracks entered start ∧ entered.session.transaction.txnId = some txnId := by
        cases enters with
        | explicit inside => exact ⟨consistent, start, tracks, inside⟩
        | automatic => exact ⟨consistent.opened true, _, .opened s true, rfl⟩
      obtain ⟨consistent, tracks, running⟩ := consistent.rowSteps rows tracks running
      cases leaves with
      | explicit => exact ⟨consistent, start, tracks⟩
      | automatic => exact ⟨consistent.committed _, _, .committed changed _⟩

/-- Rolling back what the session tracks is accepted and gives the tracked rows. -/
theorem Tracks.undo (consistent : Consistent s) (tracks : Tracks s start) (txnId : Nat)
    (explicit : s.session.autoCommit = false) :
    ∃ undone, undoAll s.session.transaction.undo.reverse (s.aborted txnId) = .ok () undone ∧
      Undone (s.aborted txnId) start undone := by
  have agree : Agree (s.aborted txnId).catalog (s.aborted txnId).indexes
      (s.aborted txnId).storage.contents := consistent.agree
  refine undoAll_spec agree ?_
  cases tracks with
  | idle session =>
      rw [session]
      exact .nil
  | explicit session chain =>
      rw [session]
      exact chain
  | automatic session =>
      rw [session] at explicit
      cases explicit

omit [Runtime] in
/-- Undone rows are as consistent as the ones they replace. -/
theorem Consistent.undone {undone : Executor} (consistent : Consistent s)
    (result : Undone s start undone) (known : ∀ ⦃table : String⦄, s.catalog[table]? = none → ∀ rowId,
      start (table, rowId) = none) : Consistent undone := by
  have contents := result.contents
  have agree := result.agree
  have same := result.sameDefinitions
  obtain ⟨tables, indexes, rfl, -⟩ := result.state
  refine ⟨consistent.named, consistent.namesDiffer,
    consistent.definitions.of_sameDefinitions same, ?_, ?_⟩
  · rw [contents]
    exact agree
  · rw [contents]
    exact known

omit [Runtime] in
theorem UndoChain.noStrayRows {catalog : Catalog} {manager : IndexManager} {now : Contents}
    {records : List UndoRecord} (chain : UndoChain catalog manager start records now)
    {table : String} (unknown : catalog[table]? = none) (rowId : Nat)
    (absent : now (table, rowId) = none) : start (table, rowId) = none := by
  induction chain with
  | nil => exact absent
  | @snoc records contents key change schema chain known current distinct ih =>
      refine ih ?_
      have differ : (table, rowId) ≠ key := by
        rintro rfl
        rw [known] at unknown
        cases unknown
      rwa [Function.update_of_ne differ] at absent

/-- **Rolling back is accepted and gives the tracked rows.** The transaction of
a single statement has nothing to undo. -/
theorem Consistent.rollback (consistent : Consistent s) (tracks : Tracks s start) {txnId : Nat}
    {undone : Executor}
    (ran : undoAll s.session.transaction.undo.reverse (s.aborted txnId) = .ok () undone) :
    Consistent undone ∧ undone.session = .new ∧
      (s.session.autoCommit = false → undone.storage.contents = start) ∧
      (s.session.autoCommit = true → undone = s.aborted txnId) := by
  have aborted : Consistent (s.aborted txnId) := consistent.congr rfl rfl rfl
  cases automatic : s.session.autoCommit with
  | true =>
      have empty : s.session.transaction.undo = [] := by
        cases tracks with
        | idle session => rw [session]; rfl
        | explicit session => rw [session] at automatic; cases automatic
        | automatic session => rw [session]; rfl
      rw [empty] at ran
      obtain ⟨-, rfl⟩ := pure_eq_ok.mp ran
      exact ⟨aborted, rfl, nofun, fun _ => rfl⟩
  | false =>
      obtain ⟨undone', ran', result⟩ := tracks.undo consistent txnId automatic
      rw [ran] at ran'
      cases ran'
      refine ⟨aborted.undone result fun table unknown rowId => ?_, ?_, fun _ => result.contents,
        nofun⟩
      · cases tracks with
        | idle => exact consistent.noStrayRows unknown rowId
        | explicit session chain =>
            exact chain.noStrayRows unknown rowId (consistent.noStrayRows unknown rowId)
        | automatic session => rw [session] at automatic; cases automatic
      · obtain ⟨tables, indexes, rfl, -⟩ := result.state
        rfl

/-- **A session step keeps the engine consistent.** -/
theorem Consistent.sessionStep (consistent : Consistent s) (tracks : Tracks s start)
    (step : SessionStep s s') : Consistent s' ∧ ∃ start, Tracks s' start := by
  cases step with
  | begin => exact ⟨consistent.opened false, _, .opened s false⟩
  | commit => exact ⟨consistent.committed _, _, .committed s _⟩
  | rollback active running undo =>
      obtain ⟨consistent, idle, -⟩ := consistent.rollback tracks undo
      exact ⟨consistent.congr rfl rfl rfl, _, .idle idle⟩
  | rows step => exact consistent.writeStep tracks step

end Steps

section Schema

variable {s s' : Executor} {catalog : Catalog} {table : String}

theorem getElem?_insertTable (catalog : Catalog) (table other : String) (schema : TableSchema) :
    (catalog.insert table schema)[other]? =
      if other = table then some schema else catalog[other]? := by
  simp only [ExtTreeMap.getElem?_insert, Std.compare_eq_iff_eq, eq_comm (a := table)]

theorem contents_ensureTable (storage : StorageEngine) (table : String) :
    (storage.ensureTable table).contents = storage.contents := by
  funext key
  unfold StorageEngine.contents StorageEngine.view StorageEngine.ensureTable tablesView
  rw [ExtTreeMap.getElem?_insertIfNew]
  by_cases new : compare table key.1 = .eq ∧ table ∉ storage.tables
  · rw [if_pos new, ← LawfulEqOrd.eq_of_compare new.1, ExtTreeMap.getElem?_eq_none new.2]
    simp [TableData.empty]
  · rw [if_neg new]

theorem contents_dropTable (storage : StorageEngine) (table : String) :
    (storage.dropTable table).contents =
      fun key => if key.1 = table then none else storage.contents key := by
  funext key
  unfold StorageEngine.contents StorageEngine.view StorageEngine.dropTable tablesView
  simp only [ExtTreeMap.getElem?_erase, Std.compare_eq_iff_eq, eq_comm (a := table)]
  split <;> simp_all

theorem createTable_eq_ok {columns : List ColumnDef}
    (created : s.catalog.createTable table columns = .ok catalog) :
    s.catalog[table]? = none ∧
      catalog = s.catalog.insert table { name := table, columns, indexes := [] } := by
  unfold Catalog.createTable at created
  split at created
  · cases created
  · rename_i absent
    cases created
    exact ⟨ExtTreeMap.getElem?_eq_none absent, rfl⟩

theorem addIndex_eq_ok {before : Catalog} {index : IndexMeta}
    (added : before.addIndex table index = .ok catalog) :
    ∃ schema, before[table]? = some schema ∧
      (∀ other ∈ schema.indexes, other.name ≠ index.name) ∧
      catalog = before.insert table { schema with indexes := schema.indexes ++ [index] } := by
  unfold Catalog.addIndex at added
  cases found : before[table]? with
  | none =>
      rw [found] at added
      cases added
  | some schema =>
      rw [found] at added
      dsimp only at added
      split at added
      · cases added
      · rename_i fresh
        cases added
        refine ⟨schema, rfl, fun other member same => fresh ?_, rfl⟩
        exact List.any_eq_true.mpr ⟨other, member, by simpa using same⟩

/-- A table that the catalog does not know has no indexes. -/
theorem Defined.index?_eq_none {manager : IndexManager} {before : Catalog}
    (defined : Defined before manager) (absent : before[table]? = none) (name : String) :
    manager.index? table name = none := by
  have definition := defined.definitions table name
  rw [absent, Option.bind_none] at definition
  exact Option.map_eq_none_iff.mp definition

theorem Defined.createTable {columns : List ColumnDef} (defined : Defined s.catalog s.indexes)
    (created : s.catalog.createTable table columns = .ok catalog) :
    Defined catalog s.indexes := by
  obtain ⟨absent, rfl⟩ := createTable_eq_ok created
  constructor
  · intro other schema found
    rw [getElem?_insertTable] at found
    split at found
    · cases found
      subst_vars
      rfl
    · exact defined.named found
  · intro other schema found
    rw [getElem?_insertTable] at found
    split at found
    · cases found
      exact List.nodup_nil
    · exact defined.namesDiffer found
  · intro other name
    rw [getElem?_insertTable]
    split
    · subst_vars
      rw [defined.index?_eq_none absent]
      rfl
    · exact defined.definitions other name

/-- Adding a table without indexes. -/
theorem Consistent.createTable {columns : List ColumnDef} (consistent : Consistent s)
    (created : s.catalog.createTable table columns = .ok catalog) :
    Consistent { s with catalog, storage := s.storage.ensureTable table } := by
  obtain ⟨named, namesDiffer, definitions⟩ := consistent.defined.createTable created
  obtain ⟨absent, rfl⟩ := createTable_eq_ok created
  refine ⟨named, namesDiffer, definitions, ?_, ?_⟩
  · intro other schema name index found placed
    rw [getElem?_insertTable] at found
    dsimp only
    rw [contents_ensureTable]
    split at found
    · subst_vars
      rw [consistent.defined.index?_eq_none absent] at placed
      cases placed
    · exact consistent.agree found placed
  · intro other unknown rowId
    dsimp only at unknown ⊢
    rw [getElem?_insertTable] at unknown
    rw [contents_ensureTable]
    split at unknown
    · cases unknown
    · exact consistent.noStrayRows unknown rowId

theorem Defined.addIndex {index : BTreeIndex} {indexes : IndexManager}
    (defined : Defined s.catalog s.indexes)
    (created : s.indexes.createIndex table index = .ok indexes)
    (added : s.catalog.addIndex table index.definition = .ok catalog) :
    Defined catalog indexes := by
  obtain ⟨schema, known, fresh, rfl⟩ := addIndex_eq_ok added
  have placed := createIndex_eq_ok created
  constructor
  · intro other otherSchema found
    rw [getElem?_insertTable] at found
    split at found
    · cases found
      subst_vars
      have name := defined.named known
      exact name
    · exact defined.named found
  · intro other otherSchema found
    rw [getElem?_insertTable] at found
    split at found
    · cases found
      rw [List.map_append, List.nodup_append']
      refine ⟨defined.namesDiffer known, List.nodup_singleton _, ?_⟩
      intro name listed single
      obtain ⟨other, member, rfl⟩ := List.mem_map.mp listed
      rw [List.map_singleton, List.mem_singleton] at single
      exact fresh other member single
    · exact defined.namesDiffer found
  · intro other name
    rw [getElem?_insertTable, placed]
    have definitions := defined.definitions other name
    by_cases here : other = table
    · subst here
      rw [known, Option.bind_some] at definitions
      rw [if_pos rfl, Option.bind_some, List.find?_append, ← definitions]
      by_cases same : name = index.name
      · have absent : s.indexes.index? other name = none := same ▸ createIndex_absent created
        rw [if_pos ⟨rfl, same⟩, absent]
        simp [BTreeIndex.definition, same]
      · rw [if_neg (by simp [same])]
        cases s.indexes.index? other name <;> simp [BTreeIndex.definition, Ne.symm same]
    · rw [if_neg (by simp [here]), if_neg here]
      exact definitions

/-- Adding an index that is exact for the rows of its table. -/
theorem Consistent.addIndex {index : BTreeIndex} {schema : TableSchema} {indexes : IndexManager}
    (consistent : Consistent s) (known : s.catalog[table]? = some schema)
    (exact : IndexExact index schema.colNames (s.storage.contents.table table))
    (created : s.indexes.createIndex table index = .ok indexes)
    (added : s.catalog.addIndex table index.definition = .ok catalog) :
    Consistent { s with indexes, catalog } := by
  obtain ⟨named, namesDiffer, definitions⟩ := consistent.defined.addIndex created added
  obtain ⟨schema', found, -, rfl⟩ := addIndex_eq_ok added
  rw [known] at found
  cases found
  have placed := createIndex_eq_ok created
  refine ⟨named, namesDiffer, definitions, ?_, ?_⟩
  · intro other otherSchema name otherIndex found placed'
    rw [placed] at placed'
    rw [getElem?_insertTable] at found
    split at found
    · cases found
      subst_vars
      split at placed'
      · cases placed'
        exact exact
      · have kept := consistent.agree known placed'
        exact kept
    · rename_i elsewhere
      rw [if_neg (by simp [elsewhere])] at placed'
      exact consistent.agree found placed'
  · intro other unknown rowId
    dsimp only at unknown ⊢
    rw [getElem?_insertTable] at unknown
    split at unknown
    · cases unknown
    · exact consistent.noStrayRows unknown rowId

theorem dropTable_eq_ok (dropped : s.catalog.dropTable table = .ok catalog) :
    table ∈ s.catalog ∧ catalog = s.catalog.erase table := by
  unfold Catalog.dropTable at dropped
  split at dropped
  · rename_i member
    cases dropped
    exact ⟨member, rfl⟩
  · cases dropped

theorem getElem?_eraseTable (catalog : Catalog) (table other : String) :
    (catalog.erase table)[other]? = if other = table then none else catalog[other]? := by
  simp only [ExtTreeMap.getElem?_erase, Std.compare_eq_iff_eq, eq_comm (a := table)]

theorem index?_dropTable (manager : IndexManager) (table other name : String) :
    (manager.dropTable table).index? other name =
      if other = table then none else manager.index? other name := by
  unfold IndexManager.index? IndexManager.dropTable
  simp only [ExtTreeMap.getD_erase, Std.compare_eq_iff_eq, eq_comm (a := table)]
  split <;> simp

theorem Defined.dropTable {manager : IndexManager} (defined : Defined s.catalog manager)
    (dropped : s.catalog.dropTable table = .ok catalog) :
    Defined catalog (manager.dropTable table) := by
  obtain ⟨-, rfl⟩ := dropTable_eq_ok dropped
  constructor
  · intro other schema found
    rw [getElem?_eraseTable] at found
    split at found
    · cases found
    · exact defined.named found
  · intro other schema found
    rw [getElem?_eraseTable] at found
    split at found
    · cases found
    · exact defined.namesDiffer found
  · intro other name
    rw [getElem?_eraseTable, index?_dropTable]
    split
    · rfl
    · exact defined.definitions other name

theorem Consistent.dropTable (consistent : Consistent s)
    (dropped : s.catalog.dropTable table = .ok catalog) :
    Consistent { s with
      catalog
      storage := s.storage.dropTable table
      indexes := s.indexes.dropTable table } := by
  obtain ⟨named, namesDiffer, definitions⟩ := consistent.defined.dropTable dropped
  obtain ⟨-, rfl⟩ := dropTable_eq_ok dropped
  have others : ∀ other, other ≠ table →
      (s.storage.dropTable table).contents.table other = s.storage.contents.table other := by
    intro other differ
    funext rowId
    simp [contents_dropTable, Contents.table, differ]
  refine ⟨named, namesDiffer, definitions, ?_, ?_⟩
  · intro other schema name index found placed
    rw [getElem?_eraseTable] at found
    rw [index?_dropTable] at placed
    split at found
    · cases found
    · rename_i elsewhere
      rw [if_neg elsewhere] at placed
      dsimp only
      rw [others other elsewhere]
      exact consistent.agree found placed
  · intro other unknown rowId
    dsimp only at unknown ⊢
    rw [getElem?_eraseTable] at unknown
    rw [contents_dropTable]
    dsimp only
    split
    · rfl
    · rename_i elsewhere
      rw [if_neg elsewhere] at unknown
      exact consistent.noStrayRows unknown rowId

/-- **A schema step keeps catalog, indexes and rows consistent.** -/
theorem Consistent.schemaStep (consistent : Consistent s) (step : SchemaStep s s') :
    Consistent s' := by
  cases step with
  | createTable created => exact consistent.createTable created
  | @createKeyedTable table columns created catalog indexName key indexes create index add =>
      obtain ⟨absent, rfl⟩ := createTable_eq_ok create
      have bare := consistent.createTable create
      have known : (s.catalog.insert table ⟨table, columns, []⟩)[table]? =
          some ⟨table, columns, []⟩ :=
        ExtTreeMap.getElem?_insert_self
      have empty : Contents.table (s.storage.ensureTable table).contents table =
          fun _ => none := by
        funext rowId
        rw [contents_ensureTable]
        exact consistent.noStrayRows absent rowId
      refine bare.addIndex known ?_ index add
      rw [empty]
      exact .new indexName key true _
  | dropTable dropped => exact consistent.dropTable dropped
  | createIndex known build create add =>
      obtain ⟨exact, definition⟩ := buildIndex_scan build
      exact consistent.addIndex known exact create (definition ▸ add)

end Schema

end MoodengSQL
