import MoodengSQL.Recovery.Crash

/-!
# Durability

Committed changes after a checkpoint, uncommitted changes before one, and crash
recovery without checkpoints. Truncating the log at a checkpoint restarts its
numbering, while `checkpoint.bin` keeps the number of the last record before;
records logged after it up to that number are skipped when the directory is
opened. A checkpoint saves the rows of the running transaction with the others,
and its rollback is not logged.
-/

namespace MoodengSQL

open Foundation Foundation.Effect Relation Std

section Runs

variable [Runtime]

/-- Run an action: a statement that returns `Ok`, with DDL outside transactions and
tables that have the names of files, or a checkpoint. -/
def runAction (s : Executor) : Action → Option Executor
  | .statement stmt =>
      if !stmt.isDdl || !s.session.transaction.active then
        match executeSession [stmt] s with
        | .ok _ s' => if s'.storage.tables.keys.all isFileName then some s' else none
        | .error _ _ => none
      else none
  | .checkpoint => match checkpointDatabase s with
      | .ok _ s' => some s'
      | .error _ _ => none

/-- Run actions from a fresh data directory. -/
def runActions (actions : List Action) : Option Executor :=
  actions.foldlM runAction Executor.fresh

/-- Run actions, crash, and open the directory again. -/
def runAndReopen (actions : List Action) : Option (Executor × Database) := do
  let s ← runActions actions
  match Database.open s.disk with
  | .ok db => some (s, db)
  | .error _ => none

variable {s s' : Executor} {actions : List Action}

theorem runAction_statement {stmt : Statement} (ran : runAction s (.statement stmt) = some s') :
    (stmt.isDdl = true → s.session.transaction.active = false) ∧
      s'.storage.FileNames ∧ ∃ result, executeSession [stmt] s = .ok result s' := by
  dsimp only [runAction] at ran
  split at ran
  · rename_i outside
    cases outcome : executeSession [stmt] s with
    | ok result final =>
        rw [outcome] at ran
        dsimp only at ran
        split at ran
        · rename_i plain
          cases ran
          exact ⟨fun isDdl => by simpa [isDdl] using outside, fun table member =>
            List.all_eq_true.mp plain table (ExtTreeMap.mem_keys.mpr member), result, rfl⟩
        · cases ran
    | error e final =>
        rw [outcome] at ran
        cases ran
  · cases ran

theorem runAction_checkpoint (ran : runAction s .checkpoint = some s') :
    checkpointDatabase s = .ok () s' := by
  dsimp only [runAction] at ran
  cases outcome : checkpointDatabase s with
  | ok result final =>
      rw [outcome] at ran
      cases ran
      rfl
  | error e final =>
      rw [outcome] at ran
      cases ran

theorem runActions_concat {action : Action} (ran : runActions (actions ++ [action]) = some s') :
    ∃ s, runActions actions = some s ∧ runAction s action = some s' := by
  unfold runActions at ran
  rw [List.foldlM_append, Option.bind_eq_bind, Option.bind_eq_some_iff] at ran
  obtain ⟨mid, before, last⟩ := ran
  simp only [List.foldlM_cons, List.foldlM_nil, Option.bind_eq_bind, Option.bind_eq_some_iff] at last
  obtain ⟨after, step, same⟩ := last
  cases same
  exact ⟨mid, before, step⟩

theorem ActionRun.of_runActions (ran : runActions actions = some s) :
    ActionRun (isFileName · = true) actions s := by
  induction actions using List.reverseRecOn generalizing s with
  | nil =>
      cases ran
      exact .nil
  | append_singleton actions action ih =>
      obtain ⟨mid, before, step⟩ := runActions_concat ran
      cases action with
      | statement stmt =>
          obtain ⟨outside, plain, result, executed⟩ := runAction_statement step
          exact .statement (ih before) (fun isDdl => .inl (outside isDdl)) executed plain
      | checkpoint => exact .checkpoint (ih before) (runAction_checkpoint step)

end Runs

section Checkpoints

variable [Runtime]

/-- **Commits after a checkpoint are durable** as long as their records lie
beyond the number in `checkpoint.bin`. Every state of a run whose tables have the
names of files is reachable, and in every reachable state, also in the middle of a
statement: if the transaction in which the last checkpoint was taken has committed,
no table was dropped since with committed records in the log, and the committed
records lie beyond the checkpoint's number, then after a crash the directory opens,
and its rows are what the committed transactions have made them. -/
theorem committed_changes_survive_crash :
    (∀ actions s, ActionRun (isFileName · = true) actions s →
      ∃ l, Reaches (isFileName · = true) s l) ∧
    ∀ s l, Reaches (isFileName · = true) s l → Durable s l →
      ∃ db, Database.open s.disk = .ok db ∧ db.storage.contents = l.settled ∧
        (s.session.transaction.active = false → db.storage.contents = s.storage.contents) := by
  refine ⟨fun actions s run => ?_, fun s l reached durable => ?_⟩
  · obtain ⟨l, reached, -⟩ := run.reaches
    exact ⟨l, reached⟩
  · obtain ⟨db, opened, -, contents⟩ := reached.kept.open_settled durable reached.saved
    refine ⟨db, opened, contents, fun inactive => contents.trans ?_⟩
    refine reached.kept.settled_of_idle ?_
    rw [reached.kept.tracks.session_eq_new inactive]
    rfl

/-- **A checkpoint never makes uncommitted work durable** if the transaction in
which the last one was taken has committed before the crash. Every state of a
run whose tables have the names of files is reachable, and in every reachable state,
also in the middle of a statement, the reopened rows are made by committed
transactions alone: by all their changes the last checkpoint saved, and by the last
of those logged since. -/
theorem reopened_rows_are_committed :
    (∀ actions s, ActionRun (isFileName · = true) actions s →
      ∃ l, Reaches (isFileName · = true) s l) ∧
    ∀ s l, Reaches (isFileName · = true) s l → l.SavedCommitted →
      ∀ db, Database.open s.disk = .ok db →
      ∃ lost, db.storage.contents = cells (l.done l.saved ++ (l.done l.logged).drop lost) := by
  refine ⟨fun actions s run => ?_, fun s l reached committed db opened => ?_⟩
  · obtain ⟨l, reached, -⟩ := run.reaches
    exact ⟨l, reached⟩
  · obtain ⟨lost, recovered⟩ := reached.kept.recovered reached.saved
    refine ⟨lost, ?_⟩
    rw [open_contents reached.kept.logs.ascending opened, recovered,
      reached.kept.sound.done_saved committed]

end Checkpoints

/-- `INSERT` of a row, a checkpoint, `INSERT` of another row, and a crash: both
statements returned `Ok`, and the second row is gone. -/
theorem commit_after_checkpoint_is_lost :
    ((@runAndReopen Runtime.reference
      [.statement createT, .statement (insertT [1]), .checkpoint, .statement (insertT [2])]).map
        fun reopened => (reopened.1.session.transaction.active,
          reopened.1.storage.scan "t", reopened.2.storage.scan "t")) =
      some (false, [(1, ⟨[.int4 1], 1⟩), (2, ⟨[.int4 2], 1⟩)], [(1, ⟨[.int4 1], 1⟩)]) := by
  decide +kernel

/-- The fiftieth log record takes a checkpoint in the middle of a transaction,
and a crash leaves the rows of the transaction behind. -/
theorem uncommitted_rows_are_saved :
    ((@runAndReopen Runtime.reference
      [.statement createT, .statement .startTransaction,
        .statement (insertT (List.range 49))]).map
        fun reopened => (reopened.1.session.transaction.active,
          (reopened.2.storage.scan "t").length)) = some (true, 49) := by
  decide +kernel

/-- A table, a checkpoint, and a row. -/
def insertAfterCheckpoint : List Action := [.statement createT, .checkpoint, .statement (insertT [1])]

/-- An `INSERT` after a checkpoint of an empty log is durable. -/
private theorem durable_insertAfterCheckpoint :
    ∃ s l, @runActions Runtime.reference insertAfterCheckpoint = some s ∧
      @Reaches Runtime.reference (isFileName · = true) s l ∧ Durable s l := by
  let _ := Runtime.reference
  obtain ⟨s, ran⟩ : ∃ s, runActions insertAfterCheckpoint = some s :=
    Option.isSome_iff_exists.mp (by decide +kernel)
  have ranAll : runActions ([.statement createT, .checkpoint] ++ [.statement (insertT [1])]) =
      some s := ran
  obtain ⟨saved, ranSaved, inserted⟩ := runActions_concat ranAll
  have ranFirst : runActions ([.statement createT] ++ [.checkpoint]) = some saved := ranSaved
  obtain ⟨created, ranCreated, checkpointed⟩ := runActions_concat ranFirst
  have idle : created.session = .new := by
    have computed : (runActions [.statement createT]).map (·.session) = some .new := by
      decide +kernel
    rw [ranCreated] at computed
    exact Option.some.inj computed
  obtain ⟨l, reached, -⟩ := (ActionRun.of_runActions ranCreated).reaches
  have reachedSaved : Reaches (isFileName · = true) saved l.checkpoint := by
    rw [checkpointDatabase_eq_ok.mp (runAction_checkpoint checkpointed)]
    exact .persist (.checkpoint reached)
  obtain ⟨-, plain, result, executed⟩ := runAction_statement inserted
  obtain ⟨_, l', onward, -, stale⟩ := reachedSaved.statement (fun automatic => by
    rw [checkpointDatabase_eq_ok.mp (runAction_checkpoint checkpointed)] at automatic
    rw [show (Executor.persisted { created with
      storage := created.storage.checkpoint }).session = created.session from rfl, idle] at automatic
    cases automatic) rfl executed plain
  have reached' := onward.reaches reachedSaved
  have log : s.storage.wal.nextTxnId = 2 ∧ s.storage.wal.checkpointFile = some (.written 0) ∧
      s.storage.wal.file = [(1, .begin 1), (2, .insert 1 "t" 1 ⟨[.int4 1], 1⟩), (3, .commit 1)] := by
    have computed : (runActions insertAfterCheckpoint).map (fun s =>
        (s.storage.wal.nextTxnId, s.storage.wal.checkpointFile, s.storage.wal.file)) =
        some (2, some (.written 0),
          [(1, .begin 1), (2, .insert 1 "t" 1 ⟨[.int4 1], 1⟩), (3, .commit 1)]) := by
      decide +kernel
    rw [ran] at computed
    simpa using computed
  obtain ⟨nextTxnId, checkpointFile, file⟩ := log
  refine ⟨s, l', ran, reached', ?_, stale rfl, ?_⟩
  · intro txn within
    obtain ⟨positive, bound⟩ := reached'.kept.logs.allocated txn (.inr (.inr within))
    obtain rfl : txn = 1 := by omega
    exact absurd rfl (reached'.kept.logs.truncated 1 within (1, .begin 1) (by rw [file]; simp))
  · intro entry member
    rw [checkpointFile]
    exact (reached'.kept.logs.numbered entry (List.mem_filter.mp member).1).1

/-- A row committed after a checkpoint of an empty log survives. -/
theorem committed_changes_survive_crash_insert :
    ∃ s l db, @runActions Runtime.reference insertAfterCheckpoint = some s ∧
      @Reaches Runtime.reference (isFileName · = true) s l ∧ Durable s l ∧
      @Database.open Runtime.reference s.disk = .ok db ∧ db.storage.contents = l.settled := by
  obtain ⟨s, l, ran, reached, durable⟩ := durable_insertAfterCheckpoint
  obtain ⟨db, opened, contents, -⟩ :=
    (@committed_changes_survive_crash Runtime.reference).2 s l reached durable
  exact ⟨s, l, db, ran, reached, durable, opened, contents⟩

/-- The rows reopened after a checkpoint of an empty log and a committed row. -/
theorem reopened_rows_are_committed_insert :
    ∃ s l db, @runActions Runtime.reference insertAfterCheckpoint = some s ∧
      @Reaches Runtime.reference (isFileName · = true) s l ∧ l.SavedCommitted ∧
      @Database.open Runtime.reference s.disk = .ok db ∧
      ∃ lost, db.storage.contents = cells (l.done l.saved ++ (l.done l.logged).drop lost) := by
  obtain ⟨s, l, ran, reached, durable⟩ := durable_insertAfterCheckpoint
  obtain ⟨db, opened, -, -⟩ := @Kept.open_settled _ _ Runtime.reference
    (@Reaches.kept Runtime.reference _ _ _ reached) durable
    (@Reaches.saved Runtime.reference _ _ reached)
  exact ⟨s, l, db, ran, reached, durable.committed, opened,
    (@reopened_rows_are_committed Runtime.reference).2 s l reached durable.committed db opened⟩

section Uncheckpointed

/-- `CREATE TABLE` and `CREATE INDEX`. -/
def Statement.isCreate : Statement → Bool
  | .createTable .. => true
  | .createIndex .. => true
  | _ => false

/-- `BEGIN`, `INSERT`, `UPDATE`, `DELETE`, `COMMIT` and `ROLLBACK`. -/
def Statement.isTransactional : Statement → Bool
  | .startTransaction => true
  | .commit => true
  | .rollback => true
  | .insert _ => true
  | .update .. => true
  | .delete .. => true
  | _ => false

variable [Runtime] {s : Executor} {stmts : List Statement}

/-- Creating tables and indexes logs nothing. -/
theorem Run.reaches_created
    (run : Run (fun _ stmt => stmt.isCreate) Executor.fresh stmts s) :
    ∃ l, Reaches (fun _ => True) s l ∧ s.session = .new ∧ l.logged = [] ∧ l.stale = false := by
  induction run with
  | nil => exact ⟨_, .start, rfl, rfl, rfl⟩
  | @snoc stmts mid s' stmt result run permitted ran ih =>
      obtain ⟨l, reached, idle, nothing, current⟩ := ih
      have isDdl : stmt.isDdl = true := by
        cases stmt <;> first | rfl | cases permitted
      obtain ⟨part, onward, session⟩ := reached.ddl
        (fun automatic => by rw [idle] at automatic; cases automatic) isDdl
        (.inl (by rw [idle]; rfl)) ran fun _ _ => trivial
      refine ⟨_, onward.reaches reached, session.trans idle, nothing, ?_⟩
      simp [Ledger.clear, Ledger.done, nothing, current]

/-- Transactions drop no table. -/
theorem Run.reaches_transactions {created : Executor} {l : RowLedger}
    (reached : Reaches (fun _ => True) created l)
    (rested : Rested created l) (current : l.stale = false)
    (run : Run (fun _ stmt => stmt.isTransactional) created stmts s) :
    ∃ l, Reaches (fun _ => True) s l ∧ Rested s l ∧ l.stale = false := by
  induction run with
  | nil => exact ⟨l, reached, rested, current⟩
  | @snoc stmts mid s' stmt result run permitted ran ih =>
      obtain ⟨l, reached, rested, current⟩ := ih
      have notDdl : stmt.isDdl = false := by
        cases stmt <;> first | rfl | cases permitted
      obtain ⟨_, l', onward, rested', kept⟩ :=
        reached.statement rested notDdl ran fun _ _ => trivial
      exact ⟨l', onward.reaches reached, rested', kept current⟩

/-- Rolling back the running transaction is accepted and gives the settled rows. -/
theorem Kept.rollback_settled {l : RowLedger} (kept : Kept s l) (rested : Rested s l)
    (active : s.session.transaction.active = true) :
    ∃ result undone, MoodengSQL.rollback s = .ok result undone ∧
      undone.storage.contents = l.settled := by
  obtain ⟨txnId, running⟩ : ∃ txnId, s.session.transaction.txnId = some txnId := by
    have tracks := kept.tracks
    generalize l.settled = start at tracks
    cases tracks with
    | idle session => rw [session] at active; cases active
    | explicit session => exact ⟨_, by rw [session]; rfl⟩
    | automatic session => exact ⟨_, by rw [session]; rfl⟩
  obtain ⟨undone, undo⟩ :
      ∃ undone, undoAll s.session.transaction.undo.reverse (s.aborted txnId) = .ok () undone := by
    cases mode : s.session.autoCommit with
    | false =>
        obtain ⟨undone, undo, -⟩ := kept.tracks.undo kept.consistent txnId mode
        exact ⟨undone, undo⟩
    | true =>
        have tracks := kept.tracks
        generalize l.settled = start at tracks
        cases tracks with
        | idle session => rw [session] at mode; cases mode
        | explicit session => rw [session] at mode; cases mode
        | automatic session =>
            rw [session]
            exact ⟨_, rfl⟩
  have ran := rollback_eq_ok.mpr ⟨txnId, undone, active, running, undo, rfl, rfl⟩
  refine ⟨_, _, ran, ?_⟩
  rw [(kept.rollback running rested ran).contents]
  exact (kept.sound.settled_abort (kept.running.trans running)).2

/-- **Crash recovery reproduces the committed state.** After any sequence of
transactional statements that return `Ok` on tables created first, with no
checkpoint, a crash and reopening succeed and give the same tables, each with
the row ids and values it had, the open transaction rolled back. -/
theorem recovery_reproduces_committed {setup : List Statement} {created : Executor}
    (tables : Run (fun _ stmt => stmt.isCreate) Executor.fresh setup created)
    (run : Run (fun _ stmt => stmt.isTransactional) created stmts s)
    (noCheckpoint : s.storage.wal.checkpointFile = none) :
    ∃ db, Database.open s.disk = .ok db ∧ db.catalog = s.catalog ∧
      (s.session.transaction.active = false → db.storage.contents = s.storage.contents) ∧
      (s.session.transaction.active = true →
        ∃ result undone, rollback s = .ok result undone ∧
          db.storage.contents = undone.storage.contents) := by
  obtain ⟨l₀, reached₀, idle, -, current₀⟩ := tables.reaches_created
  obtain ⟨l, reached, rested, current⟩ := run.reaches_transactions reached₀
    (fun automatic => by rw [idle] at automatic; cases automatic) current₀
  have kept := reached.kept
  have durable := kept.durable_of_unmarked current noCheckpoint
  -- no file has been written, so the names of the tables do not matter
  obtain ⟨noFiles, noneSaved⟩ := reached.unsaved noCheckpoint
  have saved : diskContents s.storage.datFiles = cells l.saved := by
    rw [noFiles, noneSaved, diskContents_empty]
    rfl
  obtain ⟨db, opened, catalog, contents⟩ := kept.open_settled durable saved
  refine ⟨db, opened, catalog, fun inactive => contents.trans ?_, fun active => ?_⟩
  · refine kept.settled_of_idle ?_
    rw [kept.tracks.session_eq_new inactive]
    rfl
  · obtain ⟨result, undone, ran, settled⟩ := kept.rollback_settled rested active
    exact ⟨result, undone, ran, contents.trans settled.symm⟩

end Uncheckpointed

/-- A committed row, and an open transaction with another one. -/
theorem recovery_reproduces_committed_open :
    ∃ created s db result undone,
      @Run Runtime.reference (fun _ stmt => stmt.isCreate) .fresh [createT] created ∧
      @Run Runtime.reference (fun _ stmt => stmt.isTransactional) created
        [insertT [1], .startTransaction, insertT [2]] s ∧
      @Database.open Runtime.reference s.disk = .ok db ∧
      @rollback Runtime.reference s = .ok result undone ∧
      db.storage.contents = undone.storage.contents := by
  let _ := Runtime.reference
  obtain ⟨s, ran⟩ : ∃ s, ((runStatements (fun _ stmt => stmt.isCreate) .fresh [createT]).bind
      fun created => runStatements (fun _ stmt => stmt.isTransactional) created
        [insertT [1], .startTransaction, insertT [2]]) = some s :=
    Option.isSome_iff_exists.mp (by decide +kernel)
  have computed : (((runStatements (fun _ stmt => stmt.isCreate) .fresh [createT]).bind
      fun created => runStatements (fun _ stmt => stmt.isTransactional) created
        [insertT [1], .startTransaction, insertT [2]]).map fun s =>
          (s.storage.wal.checkpointFile, s.session.transaction.active)) = some (none, true) := by
    decide +kernel
  rw [ran] at computed
  obtain ⟨noCheckpoint, active⟩ := Prod.mk.inj (Option.some.inj computed)
  obtain ⟨created, tables, run⟩ := Option.bind_eq_some_iff.mp ran
  have tables := Run.of_runStatements tables
  have run := Run.of_runStatements run
  obtain ⟨db, opened, -, -, rolledBack⟩ := recovery_reproduces_committed tables run noCheckpoint
  obtain ⟨result, undone, undo, same⟩ := rolledBack active
  exact ⟨created, s, db, result, undone, tables, run, opened, undo, same⟩

end MoodengSQL
