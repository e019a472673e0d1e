import MoodengSQL.Recovery.Shutdown

/-!
# The schema on disk

`meta.bin` is written when the result of a call asks for it, and the result of a
call is the one of its last statement. What the file holds is followed through
every sequence of calls, along with the changes of the catalog that statements
come to.
-/

namespace MoodengSQL

open Foundation Foundation.Effect Std

section Results

variable [Runtime]

/-- No result the computation returns asks for the catalog to be saved. -/
abbrev ReadsSchema (m : ExecM QueryResult) : Prop :=
  Returns (fun result => result.metaChanged = false) m

omit [Runtime] in
theorem ReadsSchema.lift {computed : Except Failure QueryResult}
    (unchanged : ∀ result, computed = .ok result → result.metaChanged = false) :
    ReadsSchema (ExecM.lift computed) := by
  intro s result s' ran
  exact unchanged result (ExecM.lift_eq_ok.mp ran).1

theorem finalizeSelect_metaChanged {query : Query} {select : Select}
    {outputCols colNames : List String} {rows : List Row} {result : QueryResult}
    (ran : finalizeSelect query select outputCols rows colNames = .ok result) :
    result.metaChanged = false := by
  unfold finalizeSelect at ran
  have finished : ∀ {cols : List String} {sorted : Except Failure (List Row)}, (do
      let rows ← sorted
      let rows ← applyLimitOffset rows query.limit query.offset colNames
      let rows ← projectRows select.projection rows colNames
      .ok (QueryResult.select cols rows)) = .ok result → result.metaChanged = false := by
    intro cols sorted ran
    simp only [except_bind_eq_ok, Except.ok.injEq] at ran
    obtain ⟨_, -, _, -, _, -, rfl⟩ := ran
    rfl
  dsimp only at ran
  split at ran
  · obtain ⟨_, -, ran⟩ := except_bind_eq_ok.mp ran
    split at ran <;> exact finished ran
  · obtain ⟨_, -, ran⟩ := except_bind_eq_ok.mp ran
    obtain ⟨_, -, ran⟩ := except_bind_eq_ok.mp ran
    split at ran <;> exact finished ran

theorem select_metaChanged {db : Database} {query : Query} {result : QueryResult}
    (ran : select db query = .ok result) : result.metaChanged = false := by
  unfold select at ran
  split at ran
  · split at ran
    · cases ran
    · split at ran
      · simp only [selectJoin, except_bind_eq_ok] at ran
        obtain ⟨_, -, _, -, _, -, ended⟩ := ran
        exact finalizeSelect_metaChanged ended
      · simp only [except_bind_eq_ok] at ran
        obtain ⟨_, -, _, -, _, -, ended⟩ := ran
        exact finalizeSelect_metaChanged ended
  · cases ran

theorem explain_metaChanged {db : Database} {statement : Statement} {result : QueryResult}
    (ran : explain db statement = .ok result) : result.metaChanged = false := by
  unfold explain at ran
  split at ran
  · split at ran
    · split at ran
      · split at ran
        · cases ran
        · simp only [except_bind_eq_ok, Except.ok.injEq] at ran
          obtain ⟨_, -, rfl⟩ := ran
          rfl
      · cases ran
    · cases ran
  · cases ran

/-- A statement that is not DDL does not ask for the catalog to be saved. -/
theorem readsSchema_statement {stmt : Statement} (notDdl : stmt.isDdl = false) :
    ReadsSchema (executeStatement stmt) := by
  cases stmt with
  | startTransaction =>
      refine .seq fun s => ?_
      dsimp only
      split
      · exact .seq fun _ => .seq fun _ => .seq fun _ => .seq fun _ => .ret rfl
      · exact .seq fun _ => .seq fun _ => .seq fun _ => .ret rfl
  | commit =>
      refine .seq fun s => ?_
      dsimp only
      split
      · exact .seq fun _ => .seq fun _ => .seq fun _ => .seq fun _ => .ret rfl
      · exact .seq fun _ => .seq fun _ => .seq fun _ => .ret rfl
  | rollback =>
      refine .seq fun s => ?_
      dsimp only
      split
      · exact .seq fun _ => .seq fun _ => .seq fun _ => .seq fun _ => .seq fun _ => .ret rfl
      · exact .seq fun _ => .seq fun _ => .seq fun _ => .seq fun _ => .ret rfl
  | createTable name columns constraints => cases notDdl
  | drop objectType names => cases notDdl
  | insert stmt =>
      unfold executeStatement insert
      dsimp only
      cases stmt.source with
      | none => exact .fail _
      | some source =>
          exact .seq fun _ => .seq fun _ => .seq fun _ => .seq fun _ => .seq fun _ =>
            .seq fun _ => .seq fun _ => .ret rfl
  | query query => exact .seq fun _ => ReadsSchema.lift fun _ => select_metaChanged
  | update table assignments selection =>
      exact .seq fun _ => .seq fun _ => .seq fun _ => .seq fun _ => .seq fun _ => .ret rfl
  | delete relations selection =>
      exact .seq fun _ => .seq fun _ => .seq fun _ => .seq fun _ => .seq fun _ => .ret rfl
  | createIndex name tableName columns unique => cases notDdl
  | explain statement => exact .seq fun _ => ReadsSchema.lift fun _ => explain_metaChanged
  | other display => exact .fail _

end Results

/-- A change of the catalog. -/
inductive SchemaChange where
  | define (schema : TableSchema)
  | drop (table : String)
  deriving DecidableEq

/-- The catalog after a change. -/
def SchemaChange.apply (catalog : Catalog) : SchemaChange → Catalog
  | .define schema => catalog.insert schema.name schema
  | .drop table => catalog.erase table

/-- The indexes a new table starts with: the one of its primary key. -/
def primaryKeyIndexes (table : String) (columns : List ColumnDef) : List IndexMeta :=
  let pkCols := (columns.filter ColumnDef.primaryKey).map ColumnDef.name
  if pkCols = [] then [] else [{ name := table ++ "_pkey", columns := pkCols, unique := true }]

section Changes

variable [Runtime]

/-- The change of the catalog a statement comes to in a state: `CREATE TABLE`
for a new name with readable columns, `DROP TABLE` for a known table, and
`CREATE INDEX` under a new name on known columns of a known table whose rows
can be indexed. -/
def schemaChange (s : Executor) : Statement → Option SchemaChange
  | .createTable name columns constraints =>
      match columns.mapM sqlColumnToDef with
      | .error _ => none
      | .ok colDefs =>
          let table := extractTableName name
          let columns := markPrimaryKeys (extractPkFromConstraints constraints) colDefs
          if table ∈ s.catalog then none
          else some (.define { name := table, columns, indexes := primaryKeyIndexes table columns })
  | .drop .table (name :: _) =>
      if extractTableName name ∈ s.catalog then some (.drop (extractTableName name)) else none
  | .createIndex name tableName columns unique =>
      let table := extractTableName tableName
      let definition : IndexMeta :=
        { name := (name.map extractTableName).getD "idx", columns := columns.map exprToColumnName
          unique }
      match s.catalog[table]? with
      | none => none
      | some schema =>
          if (definition.columns.find? fun column =>
              (Catalog.columnIndex schema column).isNone).isSome then none
          else match buildIndex schema.colNames
              (.new definition.name definition.columns definition.unique) (s.storage.scan table) with
            | .error _ => none
            | .ok _ =>
                if schema.indexes.any (·.name = definition.name) then none
                else some (.define { schema with indexes := schema.indexes ++ [definition] })
  | _ => none

/-- What a statement does to the catalog, and whether it asks for it to be saved. -/
def Performs (s : Executor) (statement : ExecM QueryResult) : Option SchemaChange → Prop
  | some change => ∃ result s', statement s = .ok result s' ∧ result.metaChanged = true ∧
      s'.catalog = change.apply s.catalog
  | none => (finalState statement s).catalog = s.catalog ∧
      ∀ result s', statement s = .ok result s' → result.metaChanged = false

omit [Runtime] in
theorem Performs.failed {s : Executor} {statement : ExecM QueryResult} {e : Failure}
    (ran : statement s = .error e s) : Performs s statement none := by
  refine ⟨by rw [finalState_of_error ran], fun result s' ended => ?_⟩
  rw [ran] at ended
  cases ended

section Performs

omit [Runtime]

variable {s s' : Executor} {statement : ExecM QueryResult} {change : Option SchemaChange}

theorem Performs.catalog (performs : Performs s statement change) :
    (finalState statement s).catalog = change.toList.foldl SchemaChange.apply s.catalog := by
  cases change with
  | none => exact performs.1
  | some change =>
      obtain ⟨result, s', ran, -, catalog⟩ := performs
      rw [finalState_of_ok ran]
      exact catalog

theorem Performs.metaChanged (performs : Performs s statement change) {result : QueryResult}
    (ran : statement s = .ok result s') : result.metaChanged = change.isSome := by
  cases change with
  | none => exact performs.2 result s' ran
  | some change =>
      obtain ⟨_, _, ran', changed, -⟩ := performs
      cases ran.symm.trans ran'
      exact changed

theorem Performs.of_error (performs : Performs s statement change) {e : Failure}
    (ran : statement s = .error e s') : change = none := by
  cases change with
  | none => rfl
  | some change =>
      obtain ⟨_, _, ran', -⟩ := performs
      cases ran.symm.trans ran'

end Performs

variable {s : Executor}

omit [Runtime] in
theorem insert_insert_catalog (catalog : Catalog) (table : String) (first second : TableSchema) :
    (catalog.insert table first).insert table second = catalog.insert table second := by
  refine ExtTreeMap.ext_getElem? fun other => ?_
  rw [getElem?_insertTable, getElem?_insertTable, getElem?_insertTable]
  split <;> rfl

omit [Runtime] in
/-- The index of a new table's primary key is accepted by manager and catalog. -/
theorem createPrimaryKeyIndex_eq_ok {table : String} {columns : List ColumnDef}
    (known : s.catalog[table]? = some { name := table, columns, indexes := [] })
    (absent : ∀ name, s.indexes.index? table name = none) :
    ∃ s', createPrimaryKeyIndex table columns s = .ok () s' ∧
      s'.catalog = s.catalog.insert table
        { name := table, columns, indexes := primaryKeyIndexes table columns } := by
  unfold createPrimaryKeyIndex primaryKeyIndexes
  dsimp only
  split
  · refine ⟨s, rfl, ExtTreeMap.ext_getElem? fun other => ?_⟩
    rw [getElem?_insertTable]
    split
    · subst_vars
      exact known
    · rfl
  · let primary : BTreeIndex := .new (table ++ "_pkey")
      ((columns.filter ColumnDef.primaryKey).map ColumnDef.name) true
    obtain ⟨indexes, created⟩ : ∃ manager, s.indexes.createIndex table primary = .ok manager :=
      createIndex_accepts (absent _)
    have added : s.catalog.addIndex table
        { name := table ++ "_pkey"
          columns := (columns.filter ColumnDef.primaryKey).map ColumnDef.name, unique := true } =
        .ok (s.catalog.insert table { name := table, columns, indexes :=
          [{ name := table ++ "_pkey"
             columns := (columns.filter ColumnDef.primaryKey).map ColumnDef.name
             unique := true }] }) := by
      unfold Catalog.addIndex
      rw [known]
      rfl
    refine ⟨{ s with indexes, catalog := _ }, ?_, rfl⟩
    rw [get_bind, bind_of_ok (ExecM.lift_eq_ok.mpr ⟨created, rfl⟩), modify_bind,
      bind_of_ok (ExecM.lift_eq_ok.mpr ⟨added, rfl⟩)]
    rfl

theorem performs_createTable (defined : Defined s.catalog s.indexes) (name : ObjectName)
    (columns : List SqlColumnDef) (constraints : List TableConstraint) :
    Performs s (createTable name columns constraints)
      (schemaChange s (.createTable name columns constraints)) := by
  unfold createTable
  simp only [schemaChange]
  cases read : columns.mapM sqlColumnToDef with
  | error e => exact .failed rfl
  | ok colDefs =>
      rw [show ExecM.lift (.ok colDefs) = (pure colDefs : ExecM _) from rfl]
      dsimp only
      by_cases taken : extractTableName name ∈ s.catalog
      · rw [if_pos taken]
        have refused : s.catalog.createTable (extractTableName name)
            (markPrimaryKeys (extractPkFromConstraints constraints) colDefs) =
            .error (.error (.execution
              ("table '" ++ extractTableName name ++ "' already exists"))) := by
          unfold Catalog.createTable
          rw [if_pos taken]
        apply Performs.failed
        rw [bind_of_ok (pure_eq_ok.mpr ⟨rfl, rfl⟩), get_bind, refused]
        rfl
      · rw [if_neg taken]
        have created : s.catalog.createTable (extractTableName name)
            (markPrimaryKeys (extractPkFromConstraints constraints) colDefs) =
            .ok (s.catalog.insert (extractTableName name)
              { name := extractTableName name
                columns := markPrimaryKeys (extractPkFromConstraints constraints) colDefs
                indexes := [] }) := by
          unfold Catalog.createTable
          rw [if_neg taken]
        obtain ⟨s', keyed, catalog⟩ := @createPrimaryKeyIndex_eq_ok
          { s with
            catalog := s.catalog.insert (extractTableName name)
              { name := extractTableName name
                columns := markPrimaryKeys (extractPkFromConstraints constraints) colDefs
                indexes := [] }
            storage := s.storage.ensureTable (extractTableName name) }
          (extractTableName name) (markPrimaryKeys (extractPkFromConstraints constraints) colDefs)
          (by rw [getElem?_insertTable, if_pos rfl])
          (defined.index?_eq_none (ExtTreeMap.getElem?_eq_none taken))
        refine ⟨.ddl ("CREATE TABLE " ++ extractTableName name), s', ?_, rfl,
          catalog.trans (insert_insert_catalog _ _ _ _)⟩
        rw [bind_of_ok (pure_eq_ok.mpr ⟨rfl, rfl⟩), get_bind,
          bind_of_ok (ExecM.lift_eq_ok.mpr ⟨created, rfl⟩), modify_bind, bind_of_ok keyed]
        rfl

omit [Runtime] in
theorem performs_dropTable (table : String) : Performs s (dropTable table)
    (if table ∈ s.catalog then some (.drop table) else none) := by
  unfold dropTable
  by_cases known : table ∈ s.catalog
  · rw [if_pos known]
    have dropped : s.catalog.dropTable table = .ok (s.catalog.erase table) := if_pos known
    refine ⟨.ddl ("DROP TABLE " ++ table), { s with
      catalog := s.catalog.erase table
      storage := s.storage.dropTable table
      indexes := s.indexes.dropTable table }, ?_, rfl, rfl⟩
    rw [get_bind, bind_of_ok (ExecM.lift_eq_ok.mpr ⟨dropped, rfl⟩)]
    rfl
  · rw [if_neg known]
    have refused : s.catalog.dropTable table = .error (.error (.tableNotFound table)) :=
      if_neg known
    apply Performs.failed
    rw [get_bind, refused]
    rfl

theorem performs_createIndex (defined : Defined s.catalog s.indexes) (name : Option ObjectName)
    (tableName : ObjectName) (columns : List (Expr × String)) (unique : Bool) :
    Performs s (executeStatement (.createIndex name tableName columns unique))
      (schemaChange s (.createIndex name tableName columns unique)) := by
  simp only [executeStatement, schemaChange]
  generalize extractTableName tableName = table
  generalize (name.map extractTableName).getD "idx" = indexName
  generalize columns.map exprToColumnName = names
  unfold createIndex
  cases found : s.catalog[table]? with
  | none =>
      have unknown : s.catalog.getTable table = .error (.error (.tableNotFound table)) := by
        unfold Catalog.getTable
        rw [found]
      apply Performs.failed
      rw [get_bind, unknown]
      rfl
  | some schema =>
      have known := getTable_eq_ok.mpr found
      dsimp only
      cases missing : names.find? fun column => (Catalog.columnIndex schema column).isNone with
      | some column =>
          rw [Option.isSome_some, if_pos rfl]
          apply Performs.failed
          rw [get_bind, bind_of_ok (ExecM.lift_eq_ok.mpr ⟨known, rfl⟩), missing]
          rfl
      | none =>
          rw [Option.isSome_none, if_neg Bool.false_ne_true]
          cases built : buildIndex schema.colNames (.new indexName names unique)
              (s.storage.scan table) with
          | error e =>
              apply Performs.failed
              rw [get_bind, bind_of_ok (ExecM.lift_eq_ok.mpr ⟨known, rfl⟩), missing]
              dsimp only
              rw [built]
              rfl
          | ok index =>
              have same := (buildIndex_scan built).2
              have sameName : index.name = indexName := congrArg IndexMeta.name same
              have definitions := defined.definitions table indexName
              rw [found, Option.bind_some] at definitions
              dsimp only
              by_cases taken : schema.indexes.any (·.name = indexName)
              · rw [if_pos taken]
                cases created : s.indexes.createIndex table index with
                | error e =>
                    apply Performs.failed
                    rw [get_bind, bind_of_ok (ExecM.lift_eq_ok.mpr ⟨known, rfl⟩), missing]
                    dsimp only
                    rw [built, bind_of_ok (ExecM.lift_eq_ok.mpr ⟨rfl, rfl⟩), created]
                    rfl
                | ok indexes =>
                    have absent := createIndex_absent created
                    rw [sameName] at absent
                    rw [absent, Option.map_none, eq_comm, List.find?_eq_none] at definitions
                    obtain ⟨definition, member, sameName⟩ := List.any_eq_true.mp taken
                    exact absurd sameName (definitions definition member)
              · rw [if_neg taken]
                have fresh : schema.indexes.find? (·.name = indexName) = none :=
                  List.find?_eq_none.mpr fun definition member sameName =>
                    taken (List.any_eq_true.mpr ⟨definition, member, sameName⟩)
                rw [fresh, Option.map_eq_none_iff, ← sameName] at definitions
                obtain ⟨indexes, created⟩ := createIndex_accepts definitions
                have added : s.catalog.addIndex table
                    { name := indexName, columns := names, unique } =
                    .ok (s.catalog.insert table { schema with indexes := schema.indexes ++
                      [{ name := indexName, columns := names, unique }] }) := by
                  unfold Catalog.addIndex
                  rw [found]
                  exact if_neg taken
                refine ⟨.ddl ("CREATE INDEX " ++ indexName), { s with
                  indexes
                  catalog := s.catalog.insert table { schema with indexes := schema.indexes ++
                    [{ name := indexName, columns := names, unique }] } },
                  ?_, rfl, ?_⟩
                · rw [get_bind, bind_of_ok (ExecM.lift_eq_ok.mpr ⟨known, rfl⟩), missing]
                  dsimp only
                  rw [built, bind_of_ok (ExecM.lift_eq_ok.mpr ⟨rfl, rfl⟩),
                    bind_of_ok (ExecM.lift_eq_ok.mpr ⟨created, rfl⟩), modify_bind,
                    bind_of_ok (ExecM.lift_eq_ok.mpr ⟨added, rfl⟩)]
                  rfl
                · rw [SchemaChange.apply, defined.named found]

omit [Runtime] in
/-- Catalog and `meta.bin` are as they were. -/
structure SchemaKept (s s' : Executor) : Prop where
  catalog : s'.catalog = s.catalog
  metaFile : s'.metaFile = s.metaFile

instance : IsPreorder Executor SchemaKept where
  refl _ := ⟨rfl, rfl⟩
  trans _ _ _ first second :=
    ⟨second.catalog.trans first.catalog, second.metaFile.trans first.metaFile⟩

theorem schemaKept_rules : SessionRules SchemaKept where
  reindex _ _ _ := ⟨rfl, rfl⟩
  bookkeeping _ _ _ _ := ⟨rfl, rfl⟩
  begins _ _ _ := ⟨rfl, rfl⟩
  finishes _ _ _ _ _ _ _ := ⟨rfl, rfl⟩
  inserts _ _ _ _ _ := ⟨rfl, rfl⟩
  updates _ _ _ _ _ _ _ _ _ _ := ⟨rfl, rfl⟩
  deletes _ _ _ _ _ _ _ _ := ⟨rfl, rfl⟩
  undoInsert _ _ _ _ := ⟨rfl, rfl⟩
  undoUpdate _ _ _ _ _ _ _ := ⟨rfl, rfl⟩
  undoDelete _ _ _ _ _ _ := ⟨rfl, rfl⟩

/-- **A statement performs its change of the catalog**, and asks for the catalog
to be saved exactly when there is one. -/
theorem performs_statement (defined : Defined s.catalog s.indexes) (stmt : Statement) :
    Performs s (executeStatement stmt) (schemaChange s stmt) := by
  have reads : ∀ {stmt : Statement}, stmt.isDdl = false →
      Performs s (executeStatement stmt) none := fun notDdl =>
    ⟨(schemaKept_rules.notDdl notDdl s).catalog, fun _ _ => @readsSchema_statement _ _ notDdl _ _ _⟩
  cases stmt with
  | createTable name columns constraints => exact performs_createTable defined name columns constraints
  | drop objectType names =>
      cases objectType with
      | table =>
          cases names with
          | nil => exact .failed rfl
          | cons name rest => exact performs_dropTable (extractTableName name)
      | other display => exact .failed rfl
  | createIndex name tableName columns unique =>
      exact performs_createIndex defined name tableName columns unique
  | _ => exact reads rfl

/-- No statement writes `meta.bin`. -/
theorem metaFile_statement (stmt : Statement) :
    (finalState (executeStatement stmt) s).metaFile = s.metaFile := by
  let same : Executor → Executor → Prop := fun s s' => s'.metaFile = s.metaFile
  have order : IsPreorder Executor same :=
    { refl := fun _ => rfl, trans := fun _ _ _ first second => second.trans first }
  have schema : ∀ (s : Executor) (catalog : Catalog) (storage : StorageEngine)
      (indexes : IndexManager), storage.wal = s.storage.wal →
      same s { s with catalog, storage, indexes } := fun _ _ _ _ _ => rfl
  have moves : Moves same (executeStatement stmt) := by
    cases stmt with
    | createTable name columns constraints => exact Moves.createTable schema _ _ _
    | drop objectType names =>
        cases objectType with
        | table =>
            cases names with
            | nil => exact Moves.fail _
            | cons name rest => exact Moves.dropTable schema _
        | other display => exact Moves.fail _
    | createIndex name tableName columns unique => exact Moves.createIndex schema _ _ _ _
    | _ => exact fun s => (schemaKept_rules.notDdl rfl s).metaFile
  exact moves s

/-- The changes of the catalog the statements of a text come to, one after the
other up to the first that fails. -/
def schemaChanges (s : Executor) : List Statement → List SchemaChange
  | [] => []
  | stmt :: rest => (schemaChange s stmt).toList ++ match executeStatement stmt s with
      | .ok _ s' => schemaChanges s' rest
      | .error _ _ => []

theorem schemaChanges_singleton (s : Executor) (stmt : Statement) :
    schemaChanges s [stmt] = (schemaChange s stmt).toList := by
  simp only [schemaChanges]
  split <;> exact List.append_nil _

/-- The statements before the last return `Ok`, and the last changes the catalog. -/
def EndsInChange (s : Executor) : List Statement → Prop
  | [] => False
  | stmt :: rest => (rest = [] ∧ (schemaChange s stmt).isSome) ∨
      ∃ result s', executeStatement stmt s = .ok result s' ∧ EndsInChange s' rest

/-- The statement loop performs the changes of its statements, and its result
asks for the catalog to be saved when it ends in one. -/
theorem executeAll_schema (stmts : List Statement) :
    ∀ {s : Executor}, Saveable s → ∀ last : QueryResult,
      (finalState (executeAll stmts last) s).catalog =
        (schemaChanges s stmts).foldl SchemaChange.apply s.catalog ∧
      ((∃ result s', executeAll stmts last s = .ok result s' ∧ result.metaChanged = true) ↔
        (stmts = [] ∧ last.metaChanged = true) ∨ EndsInChange s stmts) := by
  induction stmts with
  | nil =>
      intro s _ last
      refine ⟨rfl, ?_⟩
      simp only [executeAll, pure_eq_ok, EndsInChange, or_false, true_and]
      constructor
      · rintro ⟨_, _, ⟨same, _⟩, changed⟩
        exact same ▸ changed
      · exact fun changed => ⟨_, _, ⟨rfl, rfl⟩, changed⟩
  | cons stmt rest ih =>
      intro s saveable last
      have performs := performs_statement saveable.defined stmt
      have saved := keepsSaveable_rules.statement keepsSaveable_createTable
        keepsSaveable_dropTable keepsSaveable_createIndex stmt s saveable
      have catalog := performs.catalog
      simp only [executeAll, schemaChanges, EndsInChange, List.cons_ne_nil, false_and, false_or,
        List.foldl_append]
      cases ran : executeStatement stmt s with
      | error e mid =>
          rw [finalState_bind_of_error ran, ← finalState_of_error ran]
          refine ⟨catalog, ?_⟩
          rw [performs.of_error ran]
          constructor
          · rintro ⟨result, s', ended, -⟩
            obtain ⟨_, _, ended, -⟩ := bind_eq_ok.mp ended
            cases ran.symm.trans ended
          · rintro (⟨-, changes⟩ | ⟨_, _, ended, -⟩)
            · cases changes
            · cases ended
      | ok result mid =>
          rw [finalState_of_ok ran] at saved catalog
          obtain ⟨later, asks⟩ := ih saved result
          rw [finalState_bind_of_ok ran, bind_of_ok ran, later, catalog, asks,
            performs.metaChanged ran]
          refine ⟨rfl, or_congr_right ⟨fun ends => ⟨result, mid, rfl, ends⟩, ?_⟩⟩
          rintro ⟨_, _, same, ends⟩
          cases same
          exact ends

theorem metaFile_execute (stmts : List Statement) (s : Executor) :
    (finalState (execute stmts) s).metaFile = s.metaFile := by
  have all : ∀ (stmts : List Statement) (last : QueryResult) (s : Executor),
      (finalState (executeAll stmts last) s).metaFile = s.metaFile := by
    intro stmts
    induction stmts with
    | nil => exact fun _ _ => rfl
    | cons stmt rest ih =>
        intro last s
        have first := @metaFile_statement _ s stmt
        unfold executeAll
        cases ran : executeStatement stmt s with
        | error e mid =>
            rw [finalState_of_error ran] at first
            rw [finalState_bind_of_error ran, first]
        | ok result mid =>
            rw [finalState_of_ok ran] at first
            rw [finalState_bind_of_ok ran, ih, first]
  unfold execute
  split
  · rfl
  · exact all stmts _ s

/-- **What a call does to catalog and `meta.bin`.** -/
theorem executeSession_schema (saveable : Saveable s) (stmts : List Statement) :
    (finalState (executeSession stmts) s).catalog =
        (schemaChanges s stmts).foldl SchemaChange.apply s.catalog ∧
      (EndsInChange s stmts → diskCatalog (finalState (executeSession stmts) s).metaFile =
        (finalState (executeSession stmts) s).catalog) ∧
      (¬EndsInChange s stmts → (finalState (executeSession stmts) s).metaFile = s.metaFile) := by
  have executed : (finalState (execute stmts) s).catalog =
        (schemaChanges s stmts).foldl SchemaChange.apply s.catalog ∧
      ((∃ result s', execute stmts s = .ok result s' ∧ result.metaChanged = true) ↔
        EndsInChange s stmts) := by
    obtain ⟨catalog, asks⟩ := executeAll_schema stmts saveable (.empty "ok")
    rw [show (QueryResult.empty "ok").metaChanged = false from rfl] at asks
    simp only [Bool.false_eq_true, and_false, false_or] at asks
    unfold execute
    split
    · subst_vars
      refine ⟨rfl, ⟨?_, nofun⟩⟩
      rintro ⟨result, s', ran, changed⟩
      obtain ⟨rfl, -⟩ := pure_eq_ok.mp ran
      cases changed
    · exact ⟨catalog, asks⟩
  have file := metaFile_execute stmts s
  have saved := keepsSaveable_executeSession stmts s saveable
  obtain ⟨catalog, asks⟩ := executed
  rw [← asks]
  revert saved
  unfold executeSession
  cases ran : execute stmts s with
  | error e mid =>
      rw [finalState_of_error ran] at catalog file
      rw [finalState_bind_of_error ran]
      refine fun _ => ⟨catalog, fun ⟨_, _, ended, _⟩ => ?_, fun _ => file⟩
      cases ended
  | ok result mid =>
      rw [finalState_of_ok ran] at catalog file
      rw [finalState_bind_of_ok ran]
      cases changed : result.metaChanged with
      | true =>
          intro saved
          refine ⟨catalog, fun _ => loadTables_snapshot saved.defined.named, fun stays => ?_⟩
          exact absurd ⟨result, mid, rfl, changed⟩ stays
      | false =>
          intro _
          refine ⟨catalog, fun ⟨_, _, same, asked⟩ => ?_, fun _ => file⟩
          cases same
          rw [changed] at asked
          cases asked

end Changes

section Calls

variable [Runtime]

/-- A call: the state it finds, with the session it is made in, and its text. -/
structure SessionCall where
  before : Executor
  text : Except Failure (List Statement)

namespace SessionCall

variable (call : SessionCall)

/-- The state a call leaves, whatever its outcome. -/
def after : Executor := finalState (executeText call.text) call.before

/-- After the call `meta.bin` holds the tables and index definitions of the
catalog. -/
def MetaFollows : Prop := diskCatalog call.after.metaFile = call.after.catalog

/-- The statements of the call end in a change of the catalog, or those that
were carried out leave it as it was. -/
def SchemaSaved : Prop := ∀ stmts, call.text = .ok stmts →
  EndsInChange call.before stmts ∨
    (schemaChanges call.before stmts).foldl SchemaChange.apply call.before.catalog =
      call.before.catalog

variable {call}

theorem saveable_after (saveable : Saveable call.before) : Saveable call.after := by
  obtain ⟨before, text⟩ := call
  cases text with
  | error e => exact saveable
  | ok stmts => exact keepsSaveable_executeSession stmts before saveable

/-- When `meta.bin` holds the catalog before a call, it does after exactly when
the call saves its changes or makes none. -/
theorem metaFollows_iff (saveable : Saveable call.before)
    (follows : diskCatalog call.before.metaFile = call.before.catalog) :
    call.MetaFollows ↔ call.SchemaSaved := by
  obtain ⟨before, text⟩ := call
  dsimp only at saveable follows
  cases text with
  | error e => exact ⟨fun _ _ => nofun, fun _ => follows⟩
  | ok stmts =>
      obtain ⟨catalog, saves, keeps⟩ := executeSession_schema saveable stmts
      simp only [SchemaSaved, Except.ok.injEq, forall_eq']
      change diskCatalog (finalState (executeSession stmts) before).metaFile =
        (finalState (executeSession stmts) before).catalog ↔ _
      by_cases ends : EndsInChange before stmts
      · exact iff_of_true (saves ends) (.inl ends)
      · rw [keeps ends, follows, catalog, or_iff_right ends]
        exact eq_comm

end SessionCall

/-- The calls of a sequence, each made in any session, with the states they find. -/
def sessionCalls (db : Database) :
    List (Session × Except Failure (List Statement)) → List SessionCall
  | [] => []
  | (session, text) :: rest =>
      let call : SessionCall := { before := { db with session }, text }
      call :: sessionCalls call.after.toDatabase rest

omit [Runtime] in
/-- A catalog read from `meta.bin` keeps every schema under its name. -/
theorem diskCatalog_named {metaBin : Option (FileImage DatabaseSnapshot)} {table : String}
    {schema : TableSchema} (found : (diskCatalog metaBin)[table]? = some schema) :
    schema.name = table := by
  have loaded : ∀ (tables : List TableSchema) (catalog : Catalog),
      (∀ ⦃table : String⦄ ⦃schema : TableSchema⦄, catalog[table]? = some schema →
        schema.name = table) →
      ∀ ⦃table : String⦄ ⦃schema : TableSchema⦄,
        (catalog.loadTables tables)[table]? = some schema → schema.name = table := by
    intro tables
    induction tables with
    | nil => exact fun _ named => named
    | cons first rest ih =>
        intro catalog named
        refine ih (catalog.insert first.name first) fun table schema found => ?_
        rw [getElem?_insertTable] at found
        split at found
        · cases found
          exact Eq.symm ‹_›
        · exact named found
  unfold diskCatalog at found
  split at found
  · exact loaded _ ∅ (by simp) found
  · simp at found

/-- An opened database can be saved. -/
theorem saveable_open {disk : Disk} {db : Database} (opened : Database.open disk = .ok db)
    (session : Session) : Saveable { db with session } := by
  obtain ⟨tables, storage, grows⟩ := open_storage opened
  obtain ⟨_, indexes, -, rebuilt, rfl⟩ := open_eq_ok.mp opened
  have rebuildable := rebuildable_of_rebuildAll rebuilt
  obtain ⟨manager, rebuilt', definitions, -⟩ := rebuildAll_spec rebuildable
  obtain rfl : manager = indexes := Except.ok.inj (rebuilt'.symm.trans rebuilt)
  refine ⟨⟨fun _ _ => diskCatalog_named, fun _ _ known => (rebuildable known).1, definitions⟩, ?_⟩
  dsimp only at storage ⊢
  rw [storage]
  have prepared : ∀ (names : List String) (storage : StorageEngine), storage.FilesKnown →
      (names.foldl StorageEngine.ensureTable storage).FilesKnown := by
    intro names
    induction names with
    | nil => exact fun _ => id
    | cons name rest ih => exact fun storage known => ih _ (known.ensureTable name)
  exact (prepared _ _ (StorageEngine.filesKnown_open _ _)).grow grows

/-- **`meta.bin` follows the catalog exactly as long as every call ends in its
change of the catalog or leaves the catalog as it was.** For every sequence of
calls on an opened database, in any sessions and with any outcome. -/
theorem meta_follows_catalog_iff {disk : Disk} {db : Database}
    (opened : Database.open disk = .ok db)
    (calls : List (Session × Except Failure (List Statement))) :
    (∀ call ∈ sessionCalls db calls, call.MetaFollows) ↔
      ∀ call ∈ sessionCalls db calls, call.SchemaSaved := by
  have run : ∀ (calls : List (Session × Except Failure (List Statement))) (db : Database),
      (∀ session, Saveable { db with session }) → diskCatalog db.metaFile = db.catalog →
      ((∀ call ∈ sessionCalls db calls, call.MetaFollows) ↔
        ∀ call ∈ sessionCalls db calls, call.SchemaSaved) := by
    intro calls
    induction calls with
    | nil => exact fun _ _ _ => ⟨fun _ _ => nofun, fun _ _ => nofun⟩
    | cons entry rest ih =>
        intro db saveable follows
        obtain ⟨session, text⟩ := entry
        simp only [sessionCalls, List.forall_mem_cons]
        have first : SessionCall.MetaFollows ⟨{ db with session }, text⟩ ↔
            SessionCall.SchemaSaved ⟨{ db with session }, text⟩ :=
          SessionCall.metaFollows_iff (saveable session) follows
        have after := @SessionCall.saveable_after _ ⟨{ db with session }, text⟩ (saveable session)
        rw [← first]
        exact and_congr_right fun kept =>
          ih _ (fun _ => ⟨after.defined, after.files⟩) kept
  refine run calls db (saveable_open opened) ?_
  obtain ⟨_, _, -, -, rfl⟩ := open_eq_ok.mp opened
  rfl

end Calls

/-- A text that creates a table and fills it leaves `meta.bin` unwritten. -/
theorem filled_table_unsaved : ∃ db, @Database.open Runtime.reference Disk.fresh = .ok db ∧
    ¬∀ call ∈ @sessionCalls Runtime.reference db [(.new, .ok [createT, insertT [1]])],
      @SessionCall.MetaFollows Runtime.reference call := by
  refine ⟨Executor.fresh.toDatabase, rfl, fun follows => ?_⟩
  have first := congrArg (fun catalog : Catalog => catalog["t"]?.isSome)
    (follows _ List.mem_cons_self)
  have stored : (diskCatalog (@SessionCall.after Runtime.reference
      { before := { Executor.fresh.toDatabase with session := .new }
        text := .ok [createT, insertT [1]] }).metaFile)["t"]?.isSome = false := by
    decide +kernel
  have known : (@SessionCall.after Runtime.reference
      { before := { Executor.fresh.toDatabase with session := .new }
        text := .ok [createT, insertT [1]] }).catalog["t"]?.isSome = true := by
    decide +kernel
  exact Bool.noConfusion (stored.symm.trans (first.trans known))

/-- The same statements in two texts, the first of which ends in its change. -/
theorem meta_follows_catalog_iff_saved :
    ∃ db, @Database.open Runtime.reference Disk.fresh = .ok db ∧
      ∀ call ∈ @sessionCalls Runtime.reference db
        [(.new, .ok [createT]), (.new, .ok [insertT [1]])],
        @SessionCall.MetaFollows Runtime.reference call := by
  refine ⟨Executor.fresh.toDatabase, rfl, ?_⟩
  apply (@meta_follows_catalog_iff Runtime.reference Disk.fresh _ rfl _).mpr
  intro call member
  simp only [sessionCalls, List.mem_cons, List.not_mem_nil, or_false] at member
  rcases member with rfl | rfl
  · rintro stmts ⟨rfl⟩
    exact .inl (.inl ⟨rfl, by decide +kernel⟩)
  · rintro stmts ⟨rfl⟩
    refine .inr ?_
    rw [@schemaChanges_singleton Runtime.reference]
    rfl

end MoodengSQL
