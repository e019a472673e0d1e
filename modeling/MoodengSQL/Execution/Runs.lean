import MoodengSQL.Execution.Consistency
import MoodengSQL.Replay.Committed

/-!
# Runs of statements

A run executes statements one call at a time, each returning `Ok`. Over every
run from an empty database that keeps DDL out of explicit transactions, the
indexes are exact and a rebuild gives the same indexes; and a transaction that
is rolled back leaves rows and index entries as they were at its begin.
-/

namespace MoodengSQL

open Foundation Foundation.Effect Relation Std

/-- The state after opening a fresh data directory. -/
def Executor.fresh : Executor :=
  { catalog := ∅
    storage := .open (.open [] none) ∅
    indexes := ∅
    activeWriteTxns := 0
    metaFile := none
    session := .new }

/-- The two indexes have one definition and lead from every key to the same rows. -/
def SameEntries : Option BTreeIndex → Option BTreeIndex → Prop
  | none, none => True
  | some left, some right =>
      left.definition = right.definition ∧
        ∀ key rowId, rowId ∈ left.ids key ↔ rowId ∈ right.ids key
  | _, _ => False

/-- Indexes of one definition that are exact for the same rows have the same entries. -/
theorem sameEntries_of_exact {catalog : Catalog} {left right : IndexManager} {contents : Contents}
    {table : String} {schema : TableSchema} (known : catalog[table]? = some schema)
    (leftAgree : Agree catalog left contents) (rightAgree : Agree catalog right contents)
    {name : String} (same : (right.index? table name).map BTreeIndex.definition =
      (left.index? table name).map BTreeIndex.definition) :
    SameEntries (left.index? table name) (right.index? table name) := by
  cases leftIndex : left.index? table name with
  | none =>
      rw [leftIndex, Option.map_none, Option.map_eq_none_iff] at same
      rw [same]
      trivial
  | some index =>
      rw [leftIndex, Option.map_some] at same
      obtain ⟨other, rightIndex, definition⟩ := Option.map_eq_some_iff.mp same
      rw [rightIndex]
      refine ⟨definition.symm, fun key rowId => ?_⟩
      rw [(leftAgree known leftIndex).mem_ids, (rightAgree known rightIndex).mem_ids,
        IndexExact.keyOf_eq_of_definition definition]

theorem sameEntries_refl (index? : Option BTreeIndex) : SameEntries index? index? := by
  cases index? with
  | none => trivial
  | some index => exact ⟨rfl, fun _ _ => Iff.rfl⟩

section Runs

variable [Runtime] {s s' : Executor}

/-- Opening a fresh data directory. -/
theorem start_fresh : Executor.start Disk.fresh = .ok Executor.fresh := by
  have noTables : (∅ : Catalog).keys = [] := ExtTreeMap.keys_eq_nil_iff.mpr rfl
  have replayed : replayWal (.open (.open [] none) ∅) = (.ok 0, .open (.open [] none) ∅) := by
    rw [replayWal, show (StorageEngine.open (.open [] none) ∅).wal.replaySince
      (StorageEngine.open (.open [] none) ∅).wal.checkpointLsn = [] from rfl,
      replayEntries_eq (by simp [DistinctLsns])]
    rfl
  simp [Executor.start, Database.open, Disk.fresh, loadSnapshot, Catalog.listTables, noTables,
    replayed, rebuildAll, rebuildTables, bind, Except.bind, Except.map, Executor.fresh]

/-- A call with a single statement runs it and saves the catalog if asked to. -/
theorem executeSession_single {stmt : Statement} {result : QueryResult} :
    executeSession [stmt] s = .ok result s' ↔
      ∃ mid, executeStatement stmt s = .ok result mid ∧
        s' = if result.metaChanged then mid.persisted else mid := by
  simp only [executeSession, execute, executeAll, List.cons_ne_nil, if_false, bind_eq_ok,
    pure_eq_ok]
  constructor
  · rintro ⟨result', mid, ⟨result'', mid', ran, rfl, rfl⟩, saved⟩
    cases changed : result''.metaChanged with
    | true =>
        simp only [changed, if_true, persist, bind_eq_ok, modify_eq_ok, pure_eq_ok] at saved
        obtain ⟨_, _, rfl, rfl, rfl⟩ := saved
        exact ⟨mid', ran, by rw [changed]; rfl⟩
    | false =>
        simp only [changed, Bool.false_eq_true, if_false, pure_eq_ok] at saved
        obtain ⟨rfl, rfl⟩ := saved
        exact ⟨mid', ran, by rw [changed]; rfl⟩
  · rintro ⟨mid, ran, rfl⟩
    refine ⟨result, mid, ⟨result, mid, ran, rfl, rfl⟩, ?_⟩
    cases changed : result.metaChanged with
    | true =>
        simp only [if_true, persist, bind_eq_ok, modify_eq_ok, pure_eq_ok]
        exact ⟨(), _, rfl, trivial, rfl⟩
    | false =>
        simp only [Bool.false_eq_true, if_false, pure_eq_ok]
        exact ⟨trivial, trivial⟩

omit [Runtime] in
theorem Consistent.persisted (consistent : Consistent s) : Consistent s.persisted :=
  consistent.congr rfl rfl rfl

omit [Runtime] in
theorem Tracks.persisted {start : Contents} (tracks : Tracks s start) :
    Tracks s.persisted start := tracks.congr rfl rfl rfl rfl

/-- A run of single statements, each allowed where it is issued and each
returning `Ok`. -/
inductive Run (allowed : Executor → Statement → Bool) (s : Executor) :
    List Statement → Executor → Prop
  | nil : Run allowed s [] s
  | snoc {stmts : List Statement} {mid s' : Executor} {stmt : Statement} {result : QueryResult}
      (run : Run allowed s stmts mid) (permitted : allowed mid stmt = true)
      (ran : executeSession [stmt] mid = .ok result s') : Run allowed s (stmts ++ [stmt]) s'

/-- Run statements while they are allowed and return `Ok`. -/
def runStatements (allowed : Executor → Statement → Bool) (s : Executor) (stmts : List Statement) :
    Option Executor :=
  stmts.foldlM (fun s stmt =>
    if allowed s stmt then
      match executeSession [stmt] s with
      | .ok _ s' => some s'
      | .error _ _ => none
    else none) s

theorem Run.of_runStatements {allowed : Executor → Statement → Bool} {stmts : List Statement}
    (ran : runStatements allowed s stmts = some s') : Run allowed s stmts s' := by
  induction stmts using List.reverseRecOn generalizing s' with
  | nil =>
      cases ran
      exact .nil
  | append_singleton stmts stmt ih =>
      unfold runStatements at ran
      rw [List.foldlM_append, Option.bind_eq_bind, Option.bind_eq_some_iff] at ran
      obtain ⟨mid, before, last⟩ := ran
      simp only [List.foldlM_cons, List.foldlM_nil, Option.bind_eq_bind,
        Option.bind_eq_some_iff] at last
      obtain ⟨after, step, same⟩ := last
      cases same
      split at step
      · rename_i permitted
        cases outcome : executeSession [stmt] mid with
        | ok result final =>
            rw [outcome] at step
            cases step
            exact .snoc (ih before) permitted outcome
        | error e final =>
            rw [outcome] at step
            cases step
      · cases step

/-- DDL runs outside explicit transactions. -/
def ddlOutside (s : Executor) (stmt : Statement) : Bool :=
  !stmt.isDdl || !s.session.transaction.active

omit [Runtime] in
theorem consistent_fresh : Consistent Executor.fresh := by
  have noCatalog : ∀ table : String, Executor.fresh.catalog[table]? = none := fun table => by
    simp [Executor.fresh]
  have noRows : ∀ key, Executor.fresh.storage.contents key = none := fun key => by
    simp [Executor.fresh, StorageEngine.contents, StorageEngine.view, StorageEngine.open,
      tablesView]
  refine ⟨?_, ?_, ?_, ?_, fun _ _ _ => noRows _⟩
  · intro table schema found
    rw [noCatalog] at found
    cases found
  · intro table schema found
    rw [noCatalog] at found
    cases found
  · intro table name
    rw [noCatalog]
    simp [Executor.fresh, IndexManager.index?]
  · intro table schema name index found
    rw [noCatalog] at found
    cases found

omit [Runtime] in
/-- Outside a transaction nothing is tracked but the rows themselves. -/
theorem Tracks.session_eq_new {start : Contents} (tracks : Tracks s start)
    (inactive : s.session.transaction.active = false) : s.session = .new := by
  cases tracks with
  | idle session => exact session
  | explicit session => rw [session] at inactive; cases inactive
  | automatic session => rw [session] at inactive; cases inactive

/-- **A statement that returns `Ok` keeps the engine consistent.** -/
theorem Consistent.statement {start : Contents} {stmt : Statement} {result : QueryResult}
    (consistent : Consistent s) (tracks : Tracks s start) (outside : ddlOutside s stmt = true)
    (ran : executeSession [stmt] s = .ok result s') :
    Consistent s' ∧ ∃ start, Tracks s' start := by
  obtain ⟨mid, executed, rfl⟩ := executeSession_single.mp ran
  obtain ⟨ddl, session, -⟩ := executeStatement_ok executed
  obtain ⟨consistent, start, tracks⟩ : Consistent mid ∧ ∃ start, Tracks mid start := by
    cases kind : stmt.isDdl with
    | false => exact consistent.sessionStep tracks (session kind)
    | true =>
        have step := (ddl kind).1
        have idle := tracks.session_eq_new (by simpa [ddlOutside, kind] using outside)
        refine ⟨consistent.schemaStep step, _, .idle (?_ : mid.session = .new)⟩
        cases step <;> exact idle
  split
  · exact ⟨consistent.persisted, start, tracks.persisted⟩
  · exact ⟨consistent, start, tracks⟩

/-- Every state of a run is consistent. -/
theorem Run.consistent {stmts : List Statement} (run : Run ddlOutside Executor.fresh stmts s) :
    Consistent s ∧ ∃ start, Tracks s start := by
  induction run with
  | nil => exact ⟨consistent_fresh, _, .idle rfl⟩
  | snoc run permitted ran ih =>
      obtain ⟨consistent, start, tracks⟩ := ih
      exact consistent.statement tracks permitted ran

/-- **Catalog, index and storage consistency.** In every state reached from an
empty database by statements that return `Ok`, with no DDL inside an explicit
transaction, the catalog and the manager define the same indexes, every index
leads from a key to exactly the stored rows with this key, and `rebuild_all`
gives indexes with the same entries. -/
theorem indexes_exact_along_runs {stmts : List Statement}
    (run : Run ddlOutside Executor.fresh stmts s) :
    (∀ (table : String) (schema : TableSchema), s.catalog[table]? = some schema →
      (schema.indexes.map IndexMeta.name).Nodup ∧
      (∀ name, (s.indexes.index? table name).map BTreeIndex.definition =
        schema.indexes.find? (·.name = name)) ∧
      ∀ name index, s.indexes.index? table name = some index →
        (∀ key : IndexKey, (index.ids key).Nodup ∧ index.tree[key]? ≠ some [] ∧
          (index.unique → (index.ids key).length ≤ 1)) ∧
        ∀ key rowId, rowId ∈ index.ids key ↔
          ∃ row, s.storage.get table rowId = some row ∧
            index.keyOf schema.colNames row.values = key) ∧
    ∃ rebuilt, rebuildAll s.catalog s.storage = .ok rebuilt ∧
      ∀ table name, SameEntries (s.indexes.index? table name) (rebuilt.index? table name) := by
  obtain ⟨consistent, -⟩ := run.consistent
  constructor
  · intro table schema known
    refine ⟨consistent.namesDiffer known, fun name => ?_, fun name index found => ⟨fun key =>
      ⟨(consistent.agree known found).nodup key, index.nonempty key,
        fun unique => index.ids_length_le_one unique key⟩, fun key rowId => ?_⟩⟩
    · rw [consistent.definitions table name, known, Option.bind_some]
    · rw [(consistent.agree known found).mem_ids key rowId]
      simp only [Contents.table, StorageEngine.contents, Option.map_eq_some_iff,
        StorageEngine.get_eq_view]
      constructor
      · rintro ⟨values, ⟨row, stored, rfl⟩, sameKey⟩
        exact ⟨row, stored, sameKey⟩
      · rintro ⟨row, stored, sameKey⟩
        exact ⟨row.values, ⟨row, stored, rfl⟩, sameKey⟩
  · obtain ⟨rebuilt, ok, definitions, agree⟩ := rebuildAll_spec consistent.rebuildable
    refine ⟨rebuilt, ok, fun table name => ?_⟩
    have same : (rebuilt.index? table name).map BTreeIndex.definition =
        (s.indexes.index? table name).map BTreeIndex.definition :=
      (definitions table name).trans (consistent.definitions table name).symm
    cases known : s.catalog[table]? with
    | some schema => exact sameEntries_of_exact known consistent.agree agree same
    | none =>
        have undefined := definitions table name
        rw [known, Option.bind_none] at undefined
        rw [undefined] at same
        rw [Option.map_eq_none_iff.mp undefined, Option.map_eq_none_iff.mp same.symm]
        trivial

end Runs

/-- `CREATE TABLE t (id INT PRIMARY KEY)`. -/
def createT : Statement := .createTable ["t"] [⟨"id", .int, [.unique true]⟩] []

/-- `INSERT INTO t VALUES (n₁), (n₂), …`. -/
def insertT (numbers : List Nat) : Statement :=
  .insert ⟨["t"], [],
    some ⟨.values (numbers.map fun n => [.value (.number (toString n))]), none, none, none⟩, none⟩

/-- `SET id = n`. -/
def setT (n : Nat) : List Assignment := [⟨.columnName ["id"], .value (.number (toString n))⟩]

/-- `UPDATE t SET id = n`. -/
def updateT (n : Nat) : Statement := .update ⟨.table ["t"], []⟩ (setT n) none

/-- A table, two rows in a transaction, and a rollback. -/
theorem indexes_exact_along_runs_rollback :
    ∃ s, @Run Runtime.reference ddlOutside .fresh
        [createT, .startTransaction, insertT [1, 2], .rollback] s ∧
      ∃ rebuilt, rebuildAll s.catalog s.storage = .ok rebuilt ∧
        ∀ table name, SameEntries (s.indexes.index? table name) (rebuilt.index? table name) := by
  obtain ⟨s, ran⟩ : ∃ s, @runStatements Runtime.reference ddlOutside .fresh
      [createT, .startTransaction, insertT [1, 2], .rollback] = some s :=
    Option.isSome_iff_exists.mp (by decide +kernel)
  have run := @Run.of_runStatements Runtime.reference _ _ _ _ ran
  exact ⟨s, run, (@indexes_exact_along_runs Runtime.reference _ _ run).2⟩

section Rollback

variable [Runtime] {s s' : Executor}

/-- The state inside a transaction that began in `base`. -/
structure Inside (base s : Executor) : Prop where
  catalog : s.catalog = base.catalog
  agree : Agree s.catalog s.indexes s.storage.contents
  session : ∃ txnId undo, s.session = .explicit txnId undo ∧
    UndoChain s.catalog s.indexes base.storage.contents undo s.storage.contents
  sameDefinitions : SameDefinitions base.indexes s.indexes
  untouched : ∀ ⦃table : String⦄, base.catalog[table]? = none → ∀ name,
    s.indexes.index? table name = base.indexes.index? table name

omit [Runtime] in
theorem Inside.tracks {base : Executor} (inside : Inside base s) :
    Tracks s base.storage.contents := by
  obtain ⟨txnId, undo, session, chain⟩ := inside.session
  exact .explicit session chain

theorem Inside.rowStep {base : Executor} {txnId : Nat} (inside : Inside base s)
    (step : SomeRowStep txnId s s') : Inside base s' := by
  obtain ⟨key, change, step⟩ := step
  obtain ⟨schema, known, reindexed⟩ := step.reindexed
  refine ⟨step.catalog.trans inside.catalog, inside.agree.rowStep step, ?_,
    inside.sameDefinitions.trans step.sameDefinitions, fun table unknown name => ?_⟩
  · obtain ⟨txnId, undo, session, chain⟩ := inside.session
    refine ⟨txnId, undo ++ [change.undo key], step.session.trans (by rw [session]; rfl), ?_⟩
    rw [step.catalog, step.contents]
    exact (chain.snoc known step.current_contents inside.agree.distinguishes).of_sameDefinitions
      step.sameDefinitions
  · rw [← inside.untouched unknown name]
    refine reindexed.index?_of_ne ?_ name
    rintro rfl
    rw [inside.catalog, unknown] at known
    cases known

theorem Inside.rowSteps {base : Executor} {txnId : Nat} (inside : Inside base s)
    (steps : ReflTransGen (SomeRowStep txnId) s s') : Inside base s' := by
  induction steps with
  | refl => exact inside
  | tail _ step ih => exact ih.rowStep step

/-- A statement on rows stays inside the transaction. -/
theorem Inside.statement {base : Executor} {stmt : Statement} {result : QueryResult}
    (inside : Inside base s) (rows : stmt.isRowStatement = true)
    (ran : executeSession [stmt] s = .ok result s') : Inside base s' := by
  obtain ⟨mid, executed, rfl⟩ := executeSession_single.mp ran
  have still : Inside base mid := by
    cases (executeStatement_ok executed).2.2 rows with
    | read => exact inside
    | write enters steps leaves =>
        obtain ⟨txnId, undo, session, -⟩ := inside.session
        cases enters with
        | automatic outside => rw [session] at outside; cases outside
        | explicit running =>
            have still := inside.rowSteps steps
            obtain ⟨txnId', undo', session', -⟩ := still.session
            cases leaves with
            | explicit => exact still
            | automatic automatic => rw [session'] at automatic; cases automatic
  split
  · exact ⟨still.catalog, still.agree, still.session, still.sameDefinitions, still.untouched⟩
  · exact still

/-- Beginning a transaction. -/
theorem Inside.begin {result : QueryResult}
    (agree : Agree s.catalog s.indexes s.storage.contents)
    (ran : executeSession [.startTransaction] s = .ok result s') : Inside s s' := by
  obtain ⟨mid, executed, rfl⟩ := executeSession_single.mp ran
  obtain ⟨-, rfl, rfl⟩ := begin_eq_ok.mp executed
  exact ⟨rfl, agree, ⟨_, [], rfl, .nil⟩, fun _ _ => rfl, fun _ _ _ => rfl⟩

/-- **`ROLLBACK` restores the state at `BEGIN`.** From any state in which the
indexes agree with the rows, after statements on rows that all return `Ok`,
rolling back returns `Ok`, and the rows and the entries of every index are those
from before the begin. -/
theorem rollback_restores_begin {begun inside : Executor} {beginResult : QueryResult}
    {stmts : List Statement} (agree : Agree s.catalog s.indexes s.storage.contents)
    (began : executeSession [.startTransaction] s = .ok beginResult begun)
    (run : Run (fun _ stmt => stmt.isRowStatement) begun stmts inside) :
    ∃ result restored, executeSession [.rollback] inside = .ok result restored ∧
      restored.storage.contents = s.storage.contents ∧
      ∀ table name,
        SameEntries (s.indexes.index? table name) (restored.indexes.index? table name) := by
  have still : Inside s inside := by
    induction run with
    | nil => exact .begin agree began
    | snoc _ rows ran ih => exact ih.statement rows ran
  obtain ⟨txnId, undo, session, chain⟩ := still.session
  have aborted : Agree (inside.aborted txnId).catalog (inside.aborted txnId).indexes
      (inside.aborted txnId).storage.contents := still.agree
  obtain ⟨undone, undid, result⟩ := undoAll_spec aborted chain
  have records : inside.session.transaction.undo = undo := by rw [session]; rfl
  refine ⟨_, _, executeSession_single.mpr ⟨_, rollback_eq_ok.mpr ⟨txnId, undone,
    by rw [session]; rfl, by rw [session]; rfl, by rw [records]; exact undid, rfl, rfl⟩, rfl⟩,
    result.contents, fun table name => ?_⟩
  cases known : s.catalog[table]? with
  | none =>
      have unknown : inside.catalog[table]? = none := by rw [still.catalog, known]
      have same : undone.indexes.index? table name = s.indexes.index? table name :=
        (result.untouched unknown name).trans (still.untouched known name)
      exact same ▸ sameEntries_refl _
  | some schema =>
      have restored : Agree s.catalog undone.indexes s.storage.contents :=
        still.catalog ▸ result.agree
      exact sameEntries_of_exact known agree restored
        ((still.sameDefinitions.trans result.sameDefinitions) table name)

end Rollback

/-- A row, then a transaction that adds two more and is rolled back. -/
theorem rollback_restores_begin_two_rows :
    ∃ s begun inside : Executor, ∃ beginResult,
      @executeSession Runtime.reference [.startTransaction] s = .ok beginResult begun ∧
      @Run Runtime.reference (fun _ stmt => stmt.isRowStatement) begun [insertT [2, 3]] inside ∧
      ∃ result restored,
        @executeSession Runtime.reference [.rollback] inside = .ok result restored ∧
        restored.storage.contents = s.storage.contents := by
  let _ := Runtime.reference
  obtain ⟨s, before⟩ : ∃ s, runStatements ddlOutside .fresh [createT, insertT [1]] = some s :=
    Option.isSome_iff_exists.mp (by decide +kernel)
  have consistent := (Run.of_runStatements before).consistent.1
  obtain ⟨inside, after⟩ : ∃ inside, runStatements (fun _ stmt => stmt.isRowStatement)
      (s.opened false) [insertT [2, 3]] = some inside := by
    have whole : ((runStatements ddlOutside .fresh [createT, insertT [1]]).bind fun s =>
        runStatements (fun _ stmt => stmt.isRowStatement) (s.opened false)
          [insertT [2, 3]]).isSome := by decide +kernel
    rw [before] at whole
    exact Option.isSome_iff_exists.mp whole
  have idle : s.session.transaction.active = false := by
    have whole : ((runStatements ddlOutside .fresh [createT, insertT [1]]).map
        fun s => s.session.transaction.active) = some false := by decide +kernel
    rw [before] at whole
    exact Option.some.inj whole
  have began : executeSession [.startTransaction] s =
      .ok (.modified 0 "BEGIN") (s.opened false) :=
    executeSession_single.mpr ⟨_, begin_eq_ok.mpr ⟨idle, rfl, rfl⟩, rfl⟩
  have run := Run.of_runStatements after
  obtain ⟨result, restored, ran, contents, -⟩ :=
    rollback_restores_begin consistent.agree began run
  exact ⟨s, s.opened false, inside, _, began, run, result, restored, ran, contents⟩

end MoodengSQL
