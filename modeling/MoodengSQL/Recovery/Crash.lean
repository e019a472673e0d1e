import MoodengSQL.Recovery.Onward

/-!
# Crashes

What opening makes of the files a crash leaves. In every state a session
reaches, the reopened tables consist of what the last checkpoint saved and of
the last of the committed changes logged since. When the transaction in which
the checkpoint was taken has committed and no committed record lies below the
number in `checkpoint.bin`, they are the rows of the committed transactions.
-/

namespace MoodengSQL

open Foundation Foundation.Effect Relation Std

section Recovered

variable {s : Executor} {l : RowLedger}

/-- Reopening replays the last of the committed changes over the saved ones. -/
theorem Kept.recovered (kept : Kept s l) (saved : diskContents s.storage.datFiles = cells l.saved) :
    ∃ lost, s.disk.recovered = cells (l.saved ++ (l.done l.logged).drop lost) := by
  obtain ⟨lost, beyond⟩ := kept.logs.walChanges_beyond
    (WriteAheadLog.readCheckpointLsn s.storage.wal.checkpointFile)
  refine ⟨lost, ?_⟩
  rw [cells_append, ← beyond, map_walChanges, ← saved]
  rfl

/-- A crash loses no committed change: the transaction in which the last
checkpoint was taken has committed, no table was dropped since with committed
records in the log, and the committed records lie beyond the number in
`checkpoint.bin`. -/
structure Durable (s : Executor) (l : RowLedger) : Prop where
  committed : l.SavedCommitted
  current : l.stale = false
  beyond : ∀ entry ∈ committedRecords s.storage.wal.file,
    WriteAheadLog.readCheckpointLsn s.storage.wal.checkpointFile < entry.1

/-- Without a checkpoint, a crash loses no committed change as long as no table was
dropped with committed records in the log. -/
theorem Kept.durable_of_unmarked (kept : Kept s l) (current : l.stale = false)
    (unmarked : s.storage.wal.checkpointFile = none) : Durable s l := by
  refine ⟨fun txn within => ?_, current, fun entry member => ?_⟩
  · rw [kept.logs.unmarked unmarked] at within
    cases within
  · rw [unmarked]
    exact (kept.logs.numbered entry (List.mem_filter.mp member).1).1

theorem Kept.committedRecords_readable (kept : Kept s l) (durable : Durable s l) :
    committedRecords s.disk.readable = committedRecords s.storage.wal.file := by
  refine (committedRecords_filter kept.logs.ascending kept.logs.closed _).trans ?_
  exact List.filter_eq_self.mpr fun entry member => decide_eq_true (durable.beyond entry member)

theorem Kept.recovered_eq_settled (kept : Kept s l) (durable : Durable s l)
    (saved : diskContents s.storage.datFiles = cells l.saved) :
    s.disk.recovered = l.settled := by
  have replayed : s.disk.recovered =
      replayOps (cellOps (committedRecords s.disk.readable)) (diskContents s.storage.datFiles) := rfl
  rw [replayed, kept.committedRecords_readable durable, ← map_walChanges,
    kept.logs.walChanges_committedRecords, saved, ← cells_append,
    ← kept.sound.done_live durable.committed durable.current]
  rfl

/-- The catalog knows the tables of the log's committed records. -/
theorem Kept.known_of_committed (kept : Kept s l) (current : l.stale = false) {entry : WalEntry}
    (member : entry ∈ committedRecords s.storage.wal.file) {cell : CellOp RowKey (List Value)}
    (found : entry.2.cellOp = some cell) : cell.key.1 ∈ s.catalog := by
  have done : (entry.2.txnId, cell) ∈ l.done l.logged := by
    rw [← kept.logs.walChanges_committedRecords]
    exact List.mem_filterMap.mpr ⟨entry, member, by rw [found]; rfl⟩
  obtain ⟨logged, committed⟩ := List.mem_filter.mp done
  refine kept.known (entry.2.txnId, cell) ?_
  rw [kept.sound.traced current]
  refine List.mem_filter.mpr ⟨List.mem_append_right _ logged, ?_⟩
  simp only [decide_eq_true_eq] at committed
  simp [Ledger.counts, committed]

/-- **Opening succeeds and gives the committed rows** after a crash that loses
no committed change. -/
theorem Kept.open_settled [Runtime] (kept : Kept s l) (durable : Durable s l)
    (saved : diskContents s.storage.datFiles = cells l.saved) :
    ∃ db, Database.open s.disk = .ok db ∧ db.catalog = s.catalog ∧
      db.storage.contents = l.settled := by
  have known : ∀ entry ∈ committedRecords s.disk.readable, ∀ cell, entry.2.cellOp = some cell →
      cell.key.1 ∈ diskCatalog s.disk.metaBin := by
    intro entry member cell found
    rw [kept.committedRecords_readable durable] at member
    have inCatalog := kept.known_of_committed durable.current member found
    rw [← kept.catalog] at inCatalog
    exact inCatalog
  have rebuildable : Rebuildable (diskCatalog s.disk.metaBin) s.disk.recovered := by
    rw [kept.recovered_eq_settled durable saved]
    exact kept.catalog ▸
      kept.distinct.rebuildable kept.consistent.definitions kept.consistent.namesDiffer
  obtain ⟨db, opened, catalog, contents⟩ := open_accepts kept.logs.ascending known rebuildable
  exact ⟨db, opened, catalog.trans kept.catalog,
    contents.trans (kept.recovered_eq_settled durable saved)⟩

end Recovered

section Runs

variable [Runtime] {s s' : Executor} {l : RowLedger} {named : String → Prop}

/-- What a client of one session can call. -/
inductive Action where
  | statement (stmt : Statement)
  | checkpoint

/-- A run of one session from a fresh data directory. Statements return `Ok` or
fail before they change a row, DDL stays out of explicit transactions, and the
tables have names of the given kind. -/
inductive ActionRun (named : String → Prop) : List Action → Executor → Prop
  | nil : ActionRun named [] .fresh
  | statement {actions : List Action} {s s' : Executor} {stmt : Statement} {result : QueryResult}
      (run : ActionRun named actions s)
      (outside : stmt.isDdl = true →
        s.session.transaction.active = false ∨ s.session.autoCommit = true)
      (ran : executeSession [stmt] s = .ok result s')
      (allowed : ∀ table ∈ s'.storage.tables, named table) :
      ActionRun named (actions ++ [.statement stmt]) s'
  | failed {actions : List Action} {s s' : Executor} {stmt : Statement} {e : Failure}
      (run : ActionRun named actions s) (ran : executeSession [stmt] s = .error e s')
      (early : FailedEarly s s') : ActionRun named (actions ++ [.statement stmt]) s'
  | checkpoint {actions : List Action} {s s' : Executor} (run : ActionRun named actions s)
      (ran : checkpointDatabase s = .ok () s') : ActionRun named (actions ++ [.checkpoint]) s'

theorem checkpointDatabase_eq_ok :
    checkpointDatabase s = .ok () s' ↔
      s' = Executor.persisted { s with storage := s.storage.checkpoint } := by
  simp only [checkpointDatabase, persist, bind_eq_ok, modify_eq_ok]
  constructor
  · rintro ⟨_, _, rfl, rfl⟩
    rfl
  · rintro rfl
    exact ⟨(), _, rfl, rfl⟩

/-- The state an action ends in. -/
def Action.after (s : Executor) : Action → Executor
  | statement stmt => finalState (executeSession [stmt]) s
  | checkpoint => finalState checkpointDatabase s

/-- The last action of a run leads onward from the state before it. -/
theorem ActionRun.last {all actions : List Action} {action : Action}
    (run : ActionRun named all s') (split : all = actions ++ [action]) :
    ∃ s, ActionRun named actions s ∧ s' = action.after s ∧
      ∀ l, Reaches named s l → Rested s l →
        ∃ made l', Onward named s l made s' l' ∧ Rested s' l' := by
  cases run with
  | nil => exact absurd split.symm (List.append_ne_nil_of_right_ne_nil _ (List.cons_ne_nil _ _))
  | @statement before s _ stmt result run outside ran allowed =>
      obtain ⟨rfl, ⟨⟩⟩ := List.append_inj' split rfl
      refine ⟨s, run, (finalState_of_ok ran).symm, fun l reached rested => ?_⟩
      cases kind : stmt.isDdl with
      | false =>
          obtain ⟨made, l', onward, rested, -⟩ := reached.statement rested kind ran allowed
          exact ⟨made, l', onward, rested⟩
      | true =>
          obtain ⟨part, onward, session⟩ := reached.ddl rested kind (outside kind) ran allowed
          refine ⟨_, _, onward, fun automatic change member => ?_⟩
          rw [session] at automatic
          exact rested automatic change (List.mem_filter.mp member).1
  | @failed before s _ stmt e run ran early =>
      obtain ⟨rfl, ⟨⟩⟩ := List.append_inj' split rfl
      exact ⟨s, run, (finalState_of_error ran).symm, fun l reached rested =>
        early.onward reached rested⟩
  | @checkpoint before s _ run ran =>
      obtain ⟨rfl, ⟨⟩⟩ := List.append_inj' split rfl
      refine ⟨s, run, (finalState_of_ok ran).symm, fun l reached rested => ?_⟩
      rw [checkpointDatabase_eq_ok.mp ran]
      exact ⟨_, _, .step (.step .here .checkpoint) .persist, rested⟩

/-- The actions of a run determine its state. -/
theorem ActionRun.unique {actions : List Action} (left : ActionRun named actions s)
    (right : ActionRun named actions s') : s = s' := by
  induction actions using List.reverseRecOn generalizing s s' with
  | nil =>
      have fresh : ∀ {all s}, ActionRun named all s → all = [] → s = .fresh := by
        intro all s run none
        cases run with
        | nil => rfl
        | _ => exact absurd none (List.append_ne_nil_of_right_ne_nil _ (List.cons_ne_nil _ _))
      rw [fresh left rfl, fresh right rfl]
  | append_singleton actions action ih =>
      obtain ⟨mid, before, after, -⟩ := left.last rfl
      obtain ⟨mid', before', after', -⟩ := right.last rfl
      rw [after, after', ih before before']

/-- **A run leads onward** from every state it has been in. -/
theorem ActionRun.onward {actions later : List Action} (before : ActionRun named actions s)
    (run : ActionRun named (actions ++ later) s') (reached : Reaches named s l)
    (rested : Rested s l) : ∃ made l', Onward named s l made s' l' ∧ Rested s' l' := by
  induction later using List.reverseRecOn generalizing s' with
  | nil =>
      rw [List.append_nil] at run
      rw [← before.unique run]
      exact ⟨_, l, .here, rested⟩
  | append_singleton later action ih =>
      obtain ⟨mid, run, -, goesOn⟩ := run.last (List.append_assoc ..).symm
      obtain ⟨earlier, lMid, onward, restedMid⟩ := ih run
      obtain ⟨made, l', further, rested'⟩ := goesOn lMid (onward.reaches reached) restedMid
      exact ⟨_, l', onward.trans further, rested'⟩

/-- **Every state of a run is reachable.** -/
theorem ActionRun.reaches {actions : List Action} (run : ActionRun named actions s) :
    ∃ l, Reaches named s l ∧ Rested s l := by
  obtain ⟨made, l, onward, rested⟩ := ActionRun.nil.onward run .start nofun
  exact ⟨l, onward.reaches .start, rested⟩

end Runs

end MoodengSQL
