import MoodengSQL.Recovery.SchemaFile
import MoodengSQL.Relational.Statements

/-!
# The engine refines relations

Whatever one session asks the engine, with checkpoints and restarts in between, it is
answered as the relations answer it: a trace of statements and answers of the engine is
a trace of the relations, and the tables of the engine are theirs. The engine is opened
with the default options, which hold the tables in memory.
-/

namespace MoodengSQL

open Foundation Foundation.Effect Std

section Statements

variable [Runtime] {s s' : Executor} {rel : Relations} {stmt : Statement}

/-- The engine between two calls. -/
structure Represents (s : Executor) (rel : Relations) : Prop where
  stands : StandsFor s rel
  backed : Backed s
  saveable : Saveable s

omit [Runtime] in
/-- A computation that leaves the state alone ends as its own result does. -/
theorem endsAs_reads (stands : StandsFor s rel) (result : Except Failure QueryResult) :
    EndsAs (ExecM.lift result s) (result.toOption.map fun answer => (answer, rel)) Did := by
  cases result with
  | error e => exact .fail e
  | ok answer => exact .ret ⟨rfl, stands⟩

/-- **A statement of the engine** ends as one of the relations. -/
theorem executeStatement_endsAs (represents : Represents s rel)
    (outside : stmt.isDdl = true → s.session.transaction.active = false) :
    ∃ outcome, rel.Does stmt outcome ∧ EndsAs (executeStatement stmt s) outcome Did := by
  have stands := represents.stands
  cases stmt with
  | startTransaction => exact ⟨_, rfl, begin_endsAs stands⟩
  | commit => exact ⟨_, rfl, commit_endsAs stands⟩
  | rollback => exact ⟨_, rfl, rollback_endsAs stands⟩
  | createTable name columns constraints =>
      exact ⟨_, rfl, createTable_endsAs stands (outside rfl) name columns constraints⟩
  | drop objectType names =>
      refine ⟨_, rfl, ?_⟩
      cases objectType with
      | table =>
          cases names with
          | nil => exact .fail _
          | cons name rest => exact dropTable_endsAs stands (outside rfl) _
      | other display => exact .fail _
  | insert stmt => exact ⟨_, rfl, insert_endsAs stands stmt⟩
  | query query =>
      refine ⟨_, ⟨?_, ?_⟩, EndsAs.read (endsAs_reads stands (select s.toDatabase query))⟩
      · rw [Option.map_map]
        have answers : rel.Answers query (select s.toDatabase query).toOption :=
          select_answers stands.sameRows represents.backed stands.consistent.agree
        rwa [show Prod.fst ∘ (fun answer => (answer, rel)) = (id : QueryResult → _) from rfl,
          Option.map_id]
      · intro done given
        obtain ⟨answer, -, rfl⟩ := Option.map_eq_some_iff.mp given
        rfl
  | update table assignments selection =>
      exact ⟨_, rfl, update_endsAs stands assignments selection⟩
  | delete relations selection => exact ⟨_, rfl, delete_endsAs stands selection⟩
  | createIndex name tableName columns unique =>
      exact ⟨_, rfl, createIndex_endsAs stands (outside rfl) _ _ _ _⟩
  | explain statement =>
      refine ⟨_, ?_, EndsAs.read (endsAs_reads stands (explain s.toDatabase statement))⟩
      intro done given
      obtain ⟨answer, -, rfl⟩ := Option.map_eq_some_iff.mp given
      rfl
  | other display => exact ⟨_, rfl, .fail _⟩

omit [Runtime] in
/-- What the state stands for is read off catalog, tables, indexes and session. -/
theorem StandsFor.congr (stands : StandsFor s rel) (session : s'.session = s.session)
    (catalog : s'.catalog = s.catalog) (tables : s'.storage.tables = s.storage.tables)
    (indexes : s'.indexes = s.indexes) : StandsFor s' rel := by
  have contents : s'.storage.contents = s.storage.contents := by
    unfold StorageEngine.contents StorageEngine.view
    rw [tables]
  refine ⟨stands.consistent.congr catalog tables indexes, stands.catalog.trans catalog.symm, ?_, ?_⟩
  · rw [contents]
    exact stands.rows
  · have recalls := stands.saved
    cases saved : rel.saved with
    | none =>
        rw [saved] at recalls
        exact session.trans recalls
    | some rows =>
        rw [saved] at recalls
        obtain ⟨explicit, running, start, tracks, holds⟩ := recalls
        rw [← session] at explicit running
        exact ⟨explicit, running, start, tracks.congr session catalog contents indexes, holds⟩

/-- **A call** of one statement: what returns `Ok` is what the relations do. -/
theorem Represents.answered {result : QueryResult} (represents : Represents s rel)
    (outside : stmt.isDdl = true → s.session.transaction.active = false)
    (ran : executeSession [stmt] s = .ok result s') :
    ∃ rel', rel.Does stmt (some (result, rel')) ∧ Represents s' rel' := by
  obtain ⟨outcome, does, ends⟩ := executeStatement_endsAs represents outside
  obtain ⟨mid, executed, final⟩ := executeSession_single.mp ran
  obtain ⟨⟨_, rel'⟩, rfl, rfl, stands⟩ := ends.ok executed
  refine ⟨rel', does, ?_, ?_, ?_⟩
  · rw [final]
    split
    · exact stands.congr rfl rfl rfl rfl
    · exact stands
  · have moves : Moves KeepsBacked (executeSession [stmt]) :=
      Moves.executeSession (keepsBacked_rules.statement keepsBacked_createTable
        keepsBacked_dropTable keepsBacked_createIndex) (Moves.write fun _ => id) _
    exact finalState_of_ok ran ▸ moves _ represents.backed
  · exact finalState_of_ok ran ▸ keepsSaveable_executeSession _ _ represents.saveable

/-- What returns `Err` is what the relations refuse. -/
theorem Represents.refused {e : Failure} (represents : Represents s rel)
    (outside : stmt.isDdl = true → s.session.transaction.active = false)
    (ran : executeSession [stmt] s = .error e s') : rel.Does stmt none := by
  obtain ⟨outcome, does, ends⟩ := executeStatement_endsAs represents outside
  rwa [ends.error (executeSession_error ran)] at does

end Statements

section Restarts

variable [Runtime] {s s' s'' : Executor} {rel : Relations}

omit [Runtime] in
/-- The empty directory stands for no tables. -/
theorem represents_fresh : Represents .fresh .empty := by
  have nowhere : Executor.fresh.storage.contents = fun _ => none := kept_fresh.contents
  refine ⟨⟨consistent_fresh, rfl, fun table => ⟨[], ?_, rfl⟩, rfl⟩,
    fun table known => absurd known ExtTreeMap.not_mem_empty, consistent_fresh.defined,
    kept_fresh.files⟩
  rw [nowhere]
  exact .nil

theorem Represents.checkpoint (represents : Represents s rel)
    (saved : checkpointDatabase s = .ok () s') : Represents s' rel := by
  rw [checkpointDatabase_eq_ok.mp saved]
  refine ⟨represents.stands.congr rfl rfl (StorageEngine.tables_checkpoint _) rfl,
    fun table known => ?_, represents.saveable.defined,
    filesKnown_checkpoint represents.saveable.files⟩
  exact (StorageEngine.tables_checkpoint _).symm ▸ represents.backed table known

/-- **A restart after a checkpoint** opens a database that stands for the same relations,
if the names of the tables can be those of files. -/
theorem Represents.restart (represents : Represents s rel)
    (idle : s.session.transaction.active = false) (plain : s.storage.FileNames)
    (saved : checkpointDatabase s = .ok () s')
    (started : Executor.start s'.disk = .ok s'') : Represents s'' rel := by
  have stands := represents.stands
  obtain ⟨log, catalog, recovered⟩ := represents.saveable.files_checkpoint plain saved
  unfold Executor.start at started
  cases opened : Database.open s'.disk with
  | error e =>
      rw [opened] at started
      cases started
  | ok db =>
      rw [opened] at started
      cases started
      obtain ⟨catalogs, contents, rebuilt⟩ := open_ok (by rw [log]; exact .nil) opened
      obtain ⟨manager, rebuilt', definitions, agree⟩ :=
        rebuildAll_spec (rebuildable_of_rebuildAll rebuilt)
      obtain rfl : manager = db.indexes := Except.ok.inj (rebuilt'.symm.trans rebuilt)
      rw [catalog] at catalogs
      rw [recovered] at contents
      refine ⟨⟨⟨?_, ?_, definitions, agree, ?_⟩, stands.catalog.trans catalogs.symm, ?_, ?_⟩, ?_,
        saveable_open opened _⟩
      · exact fun table schema known => stands.consistent.named (catalogs ▸ known)
      · exact fun table schema known => stands.consistent.namesDiffer (catalogs ▸ known)
      · intro table unknown id
        change db.storage.contents (table, id) = none
        rw [contents]
        exact stands.consistent.noStrayRows (catalogs ▸ unknown) id
      · change Tabulates db.storage.contents rel.rows
        rw [contents]
        exact stands.rows
      · rw [(stands.idle idle).1]
        rfl
      · intro table known
        obtain ⟨tables, storage, grows⟩ := open_storage opened
        change table ∈ db.storage.tables
        rw [storage]
        refine grows table ((ensureTables_spec _ _).2.2.2 table (ExtTreeMap.mem_keys.mpr ?_))
        rw [catalog, ← catalogs]
        exact known

/-- Outside transactions the engine can be saved and opened again. -/
theorem Represents.reopens (represents : Represents s rel) (plain : s.storage.FileNames) :
    ReopensSame s :=
  (represents.saveable.reopensSame_iff plain).mpr fun _ _ known =>
    (represents.stands.consistent.rebuildable known).2

end Restarts

section Runs

variable [Runtime] {s s' : Executor} {trace : List (Statement × Option QueryResult)}

/-- A run of one session from an empty directory, with the answers. DDL stays out of
transactions, a refused statement leaves the state as it was, and the process restarts
outside transactions, from a checkpoint, while the names of the tables can be those of
files. -/
inductive EngineRun : List (Statement × Option QueryResult) → Executor → Prop
  | fresh : EngineRun [] .fresh
  | answered {trace : List (Statement × Option QueryResult)} {s s' : Executor} {stmt : Statement}
      {result : QueryResult} (run : EngineRun trace s)
      (outside : stmt.isDdl = true → s.session.transaction.active = false)
      (ran : executeSession [stmt] s = .ok result s') :
      EngineRun (trace ++ [(stmt, some result)]) s'
  | refused {trace : List (Statement × Option QueryResult)} {s : Executor} {stmt : Statement}
      {e : Failure} (run : EngineRun trace s)
      (outside : stmt.isDdl = true → s.session.transaction.active = false)
      (ran : executeSession [stmt] s = .error e s) : EngineRun (trace ++ [(stmt, none)]) s
  | checkpoint {trace : List (Statement × Option QueryResult)} {s s' : Executor}
      (run : EngineRun trace s) (saved : checkpointDatabase s = .ok () s') : EngineRun trace s'
  | restart {trace : List (Statement × Option QueryResult)} {s s' s'' : Executor}
      (run : EngineRun trace s) (idle : s.session.transaction.active = false)
      (plain : s.storage.FileNames) (saved : checkpointDatabase s = .ok () s')
      (started : Executor.start s'.disk = .ok s'') : EngineRun trace s''

theorem EngineRun.represents (run : EngineRun trace s) :
    ∃ rel, Relations.Run trace rel ∧ Represents s rel := by
  induction run with
  | fresh => exact ⟨_, .empty, represents_fresh⟩
  | answered run outside ran ih =>
      obtain ⟨rel, traced, represents⟩ := ih
      obtain ⟨rel', does, represents⟩ := represents.answered outside ran
      exact ⟨rel', .step traced does, represents⟩
  | refused run outside ran ih =>
      obtain ⟨rel, traced, represents⟩ := ih
      exact ⟨rel, .step traced (represents.refused outside ran), represents⟩
  | checkpoint run saved ih =>
      obtain ⟨rel, traced, represents⟩ := ih
      exact ⟨rel, traced, represents.checkpoint saved⟩
  | restart run idle plain saved started ih =>
      obtain ⟨rel, traced, represents⟩ := ih
      exact ⟨rel, traced, represents.restart idle plain saved started⟩

/-- Actions that return `Ok` are a run. -/
theorem EngineRun.of_runActions {actions : List Action} (ran : runActions actions = some s) :
    ∃ trace, EngineRun trace s := by
  induction actions using List.reverseRecOn generalizing s with
  | nil =>
      cases ran
      exact ⟨_, .fresh⟩
  | append_singleton actions action ih =>
      obtain ⟨mid, before, step⟩ := runActions_concat ran
      obtain ⟨trace, run⟩ := ih before
      cases action with
      | statement stmt =>
          obtain ⟨outside, -, result, executed⟩ := runAction_statement step
          exact ⟨_, .answered run outside executed⟩
      | checkpoint => exact ⟨_, .checkpoint run (runAction_checkpoint step)⟩

end Runs

end MoodengSQL
