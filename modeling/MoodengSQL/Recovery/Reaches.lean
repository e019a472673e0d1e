import MoodengSQL.Recovery.Files
import MoodengSQL.Execution.Runs

/-!
# Reachable states and their ledgers

The states a session reaches, at every point at which the files can change: a
transaction begins, changes a row, ends; a DDL statement runs; a checkpoint is
taken. Every state comes with the ledger of what the transactions have done.
Memory and log hold what the ledger says, and so do the table files as long as
the names of the tables can be those of files.
-/

namespace MoodengSQL

open Foundation Foundation.Effect Relation Std

/-- The ledger of the engine: the cells are the rows. -/
abbrev RowLedger := Ledger RowKey (List Value)

/-- The operation on the row values that a row change makes. -/
def RowChange.cellOp (key : RowKey) : RowChange → CellOp RowKey (List Value)
  | insert row => .put key row.values
  | update _ new => .replace key new.values
  | delete _ => .erase key

theorem RowChange.cellOp_walOp (change : RowChange) (txnId : Nat) (key : RowKey) :
    (change.walOp txnId key).cellOp = some (change.cellOp key) := by
  cases change <;> rfl

theorem RowChange.txnId_walOp (change : RowChange) (txnId : Nat) (key : RowKey) :
    (change.walOp txnId key).txnId = txnId := by
  cases change <;> rfl

theorem RowChange.key_cellOp (change : RowChange) (key : RowKey) :
    (change.cellOp key).key = key := by
  cases change <;> rfl

/-- Every table of the catalog has a table in storage. -/
def Backed (s : Executor) : Prop := ∀ table ∈ s.catalog, table ∈ s.storage.tables

/-- The rows of the tables a schema step drops. -/
def droppedBy (s s' : Executor) (key : RowKey) : Bool := key.1 ∈ s.catalog ∧ key.1 ∉ s'.catalog

theorem mem_of_not_droppedBy {s s' : Executor} {key : RowKey} (known : key.1 ∈ s.catalog)
    (stays : droppedBy s s' key = false) : key.1 ∈ s'.catalog := by
  by_contra gone
  exact of_decide_eq_false stays ⟨known, gone⟩

section Reaches

variable [Runtime]

/-- The ledger after a row change: the storage takes a checkpoint if one is due. -/
def ledgerAfter (s : Executor) (l : RowLedger) (txnId : Nat) (key : RowKey) (change : RowChange) :
    RowLedger :=
  if (s.storage.wal.append (change.walOp txnId key)).shouldCheckpoint then
    (l.change txnId (change.cellOp key)).checkpoint
  else l.change txnId (change.cellOp key)

/-- The states a session reaches from a fresh data directory, each with its
ledger. A statement that fails is followed up to where it has changed no row,
DDL stays out of explicit transactions, and the tables have names of the given
kind. -/
inductive Reaches (named : String → Prop) : Executor → RowLedger → Prop
  | start : Reaches named .fresh .empty
  | begin {s : Executor} {l : RowLedger} {autoCommit : Bool} (reached : Reaches named s l)
      (idle : s.session.transaction.active = false) :
      Reaches named (s.opened autoCommit) (l.begin s.storage.wal.nextTxnId)
  | row {s s' : Executor} {l : RowLedger} {txnId : Nat} {key : RowKey} {change : RowChange}
      (reached : Reaches named s l) (running : s.session.transaction.txnId = some txnId)
      (step : RowStep txnId key change s s') (allowed : ∀ table ∈ s'.storage.tables, named table) :
      Reaches named s' (ledgerAfter s l txnId key change)
  | commit {s : Executor} {l : RowLedger} {txnId : Nat} (reached : Reaches named s l)
      (running : s.session.transaction.txnId = some txnId) :
      Reaches named (s.committed txnId) (l.commit txnId)
  | rollback {s s' : Executor} {l : RowLedger} {txnId : Nat} {result : QueryResult}
      (reached : Reaches named s l) (running : s.session.transaction.txnId = some txnId)
      (unchanged : s.session.autoCommit = true → ∀ change ∈ l.live, change.1 ∈ l.committed)
      (ran : rollback s = .ok result s') (allowed : ∀ table ∈ s'.storage.tables, named table) :
      Reaches named s' (l.abort txnId)
  | schema {s s' : Executor} {l : RowLedger} (reached : Reaches named s l)
      (outside : s.session.transaction.active = false ∨ s.session.autoCommit = true)
      (unchanged : ∀ change ∈ l.live, change.1 ∈ l.committed) (step : SchemaStep s s')
      (allowed : ∀ table ∈ s'.storage.tables, named table) :
      Reaches named s'.persisted (l.clear (droppedBy s s'))
  | checkpoint {s : Executor} {l : RowLedger} (reached : Reaches named s l) :
      Reaches named { s with storage := s.storage.checkpoint } l.checkpoint
  | persist {s : Executor} {l : RowLedger} (reached : Reaches named s l) :
      Reaches named s.persisted l

/-- Memory, log and catalog file hold what the ledger says. -/
structure Kept (s : Executor) (l : RowLedger) : Prop where
  consistent : Consistent s
  tracks : Tracks s l.settled
  sound : l.Sound
  logs : Logs s.storage.wal l
  running : l.running = s.session.transaction.txnId
  contents : s.storage.contents = cells l.live
  files : s.storage.FilesKnown
  catalog : diskCatalog s.metaFile = s.catalog
  known : ∀ change ∈ l.live, change.2.key.1 ∈ s.catalog
  distinct : Distinguishes s.catalog s.indexes l.settled

variable {s s' : Executor} {l : RowLedger} {txnId : Nat} {key : RowKey} {change : RowChange}

omit [Runtime] in
theorem Kept.undecided (kept : Kept s l) (running : s.session.transaction.txnId = some txnId) :
    txnId ∉ l.committed :=
  kept.sound.undecided txnId (kept.running.trans running)

omit [Runtime] in
theorem Kept.settled_of_idle (kept : Kept s l) (idle : s.session.transaction.txnId = none) :
    l.settled = s.storage.contents := by
  rw [kept.contents]
  exact congrArg cells (kept.sound.done_live_of_idle (kept.running.trans idle))

omit [Runtime] in
theorem kept_fresh : Kept Executor.fresh .empty := by
  have contents : Executor.fresh.storage.contents = fun _ => none := by
    funext key
    simp [Executor.fresh, StorageEngine.contents, StorageEngine.view, StorageEngine.open,
      tablesView]
  have tracks : Tracks Executor.fresh Executor.fresh.storage.contents := .idle rfl
  rw [contents] at tracks
  refine ⟨consistent_fresh, tracks, Ledger.sound_empty, logs_open, rfl, contents, ?_, rfl,
    ?_, ?_⟩
  · intro path member
    exact absurd member ExtTreeMap.not_mem_empty
  · intro change member
    cases member
  · have distinct := consistent_fresh.agree.distinguishes
    rw [contents] at distinct
    exact distinct

omit [Runtime] in
theorem Kept.begin (kept : Kept s l) (idle : s.session.transaction.active = false)
    (autoCommit : Bool) : Kept (s.opened autoCommit) (l.begin s.storage.wal.nextTxnId) := by
  have session := kept.tracks.session_eq_new idle
  have noTxn : s.session.transaction.txnId = none := by rw [session]; rfl
  have notRunning : l.running = none := kept.running.trans noTxn
  have settled := kept.settled_of_idle noTxn
  have fresh : ∀ txn, txn ∈ l.committed ∨ l.running = some txn ∨ l.within = some txn →
      txn ≠ s.storage.wal.nextTxnId :=
    fun txn used => Nat.ne_of_lt (kept.logs.allocated txn used).2
  refine ⟨kept.consistent.opened autoCommit, ?_, ?_, kept.logs.begin, rfl, kept.contents,
    kept.files, kept.catalog, kept.known, kept.distinct⟩
  · change Tracks (s.opened autoCommit) l.settled
    rw [settled]
    exact .opened s autoCommit
  · refine kept.sound.begin notRunning (fun used => fresh _ (.inl used) rfl) ?_
    intro change member
    rcases List.mem_append.mp member with saved | logged
    · rcases kept.sound.savedOwned change saved with committed | within
      · exact fresh _ (.inl committed)
      · exact fresh _ (.inr (.inr within))
    · rw [← kept.logs.changes] at logged
      obtain ⟨entry, inFile, made⟩ := List.mem_filterMap.mp logged
      obtain ⟨cell, -, rfl⟩ := Option.map_eq_some_iff.mp made
      exact Nat.ne_of_lt (kept.logs.used entry inFile)

omit [Runtime] in
theorem Kept.commit (kept : Kept s l) (running : s.session.transaction.txnId = some txnId) :
    Kept (s.committed txnId) (l.commit txnId) := by
  have current := kept.running.trans running
  have settled : (l.commit txnId).settled = s.storage.contents :=
    (kept.sound.settled_commit current).trans kept.contents.symm
  refine ⟨kept.consistent.committed txnId, ?_, kept.sound.commit current, kept.logs.commit current,
    rfl, kept.contents, kept.files, kept.catalog, kept.known, ?_⟩
  · rw [settled]
    exact .committed s txnId
  · rw [settled]
    exact kept.consistent.agree.distinguishes

/-- Taking a checkpoint is the checkpoint of the ledger. -/
theorem Kept.checkpoint (kept : Kept s l) :
    Kept { s with storage := s.storage.checkpoint } l.checkpoint := by
  have tables := StorageEngine.tables_checkpoint s.storage
  have contents : s.storage.checkpoint.contents = s.storage.contents := by
    unfold StorageEngine.contents StorageEngine.view
    rw [tables]
  have logs : Logs s.storage.checkpoint.wal l.checkpoint := by
    have marked := kept.logs.checkpoint s.storage.checkpointAll.wal.lsn
    unfold StorageEngine.checkpoint
    simpa using marked
  have tracks : Tracks { s with storage := s.storage.checkpoint } l.settled :=
    kept.tracks.congr rfl rfl contents rfl
  exact ⟨kept.consistent.congr rfl tables rfl, tracks, kept.sound.checkpoint, logs, kept.running,
    contents.trans kept.contents, filesKnown_checkpoint kept.files, kept.catalog, kept.known,
    kept.distinct⟩

omit [Runtime] in
theorem Kept.persisted (kept : Kept s l) : Kept s.persisted l := by
  refine ⟨kept.consistent.persisted, kept.tracks.persisted, kept.sound, kept.logs, kept.running,
    kept.contents, kept.files, ?_, kept.known, kept.distinct⟩
  exact loadTables_snapshot kept.consistent.named

/-- A row change is the change of the ledger, and a checkpoint if one is due. -/
theorem Kept.row (kept : Kept s l) (running : s.session.transaction.txnId = some txnId)
    (step : RowStep txnId key change s s') : Kept s' (ledgerAfter s l txnId key change) := by
  have undecided := kept.undecided running
  have current := kept.running.trans running
  obtain ⟨tables, stored, grows, changed⟩ := step.stored
  obtain ⟨schema, inCatalog, -⟩ := step.reindexed
  -- the state before the checkpoint, if the change takes one
  have logged : Kept { s' with storage := {
      s.storage with tables, wal := s.storage.wal.append (change.walOp txnId key) } }
      (l.change txnId (change.cellOp key)) := by
    have contents : s'.storage.contents = cells (l.live ++ [(txnId, change.cellOp key)]) := by
      rw [step.contents, cells_append, ← kept.contents]
      have before := step.current_contents
      cases change with
      | insert row => rfl
      | delete old => rfl
      | update old new =>
          change _ = Function.update s.storage.contents key
            ((s.storage.contents key).map fun _ => new.values)
          rw [before]
          rfl
    have sameRows : ({ s.storage with
        tables, wal := s.storage.wal.append (change.walOp txnId key) } : StorageEngine).contents =
        s'.storage.contents := by
      unfold StorageEngine.contents StorageEngine.view
      rw [stored, StorageEngine.tables_log]
    have settled := Ledger.settled_change undecided (change.cellOp key)
    refine ⟨(kept.consistent.rowStep step).congr rfl ?_ rfl, ?_, kept.sound.change current _,
      kept.logs.change current undecided (change.txnId_walOp _ _) (change.cellOp_walOp _ _), ?_,
      sameRows.trans contents, kept.files.grow grows, ?_, ?_, ?_⟩
    · rw [stored, StorageEngine.tables_log]
    · rw [settled]
      exact (kept.tracks.rowStep kept.consistent.agree running step).congr rfl rfl sameRows rfl
    · exact current.trans (step.running running).symm
    · exact (congrArg diskCatalog step.metaFile).trans (kept.catalog.trans step.catalog.symm)
    · intro other member
      change other.2.key.1 ∈ s'.catalog
      rw [step.catalog]
      rcases List.mem_append.mp member with before | last
      · exact kept.known other before
      · rw [List.mem_singleton.mp last, change.key_cellOp]
        exact Map.mem_of_getElem?_eq_some inCatalog
    · rw [settled]
      exact step.catalog ▸ kept.distinct.of_sameDefinitions step.sameDefinitions
  have state : s' = { s' with storage :=
      (StorageEngine.mk tables s.storage.wal s.storage.datFiles).log (change.walOp txnId key) } :=
    congrArg (fun storage => { s' with storage }) stored
  rw [state, ledgerAfter, StorageEngine.log, StorageEngine.maybeCheckpoint]
  split
  · exact logged.checkpoint
  · exact logged

/-- Undoing a transaction changes the tables and the indexes only, and takes no table
away. -/
theorem Kept.undone (kept : Kept s l) {undone : Executor}
    (undo : undoAll s.session.transaction.undo.reverse (s.aborted txnId) = .ok () undone) :
    ∃ tables indexes,
      undone = { s.aborted txnId with storage := { (s.aborted txnId).storage with tables }, indexes } ∧
        (∀ name ∈ s.storage.tables, name ∈ tables) ∧ SameDefinitions s.indexes indexes := by
  obtain ⟨-, -, -, automatic⟩ := kept.consistent.rollback kept.tracks undo
  cases mode : s.session.autoCommit with
  | true => exact ⟨s.storage.tables, s.indexes, automatic mode, fun _ => id, fun _ _ => rfl⟩
  | false =>
      obtain ⟨undone', ran', result⟩ := kept.tracks.undo kept.consistent txnId mode
      rw [undo] at ran'
      cases ran'
      have same := result.sameDefinitions
      obtain ⟨tables, indexes, rfl, grows⟩ := result.state
      exact ⟨tables, indexes, rfl, grows, same⟩

/-- The states rolling back leads to. -/
theorem Kept.rollback {result : QueryResult} (kept : Kept s l)
    (running : s.session.transaction.txnId = some txnId)
    (unchanged : s.session.autoCommit = true → ∀ change ∈ l.live, change.1 ∈ l.committed)
    (ran : rollback s = .ok result s') : Kept s' (l.abort txnId) := by
  obtain ⟨txnId', undone, -, running', undo, -, rfl⟩ := rollback_eq_ok.mp ran
  rw [running] at running'
  cases running'
  have current := kept.running.trans running
  obtain ⟨settled, live⟩ := kept.sound.settled_abort current
  obtain ⟨consistent, idle, explicit, automatic⟩ := kept.consistent.rollback kept.tracks undo
  have contents : undone.storage.contents = l.settled := by
    cases mode : s.session.autoCommit with
    | false => exact explicit mode
    | true =>
        rw [automatic mode, Ledger.settled_of_committed (unchanged mode)]
        exact kept.contents
  obtain ⟨tables, indexes, state, grows, same⟩ := kept.undone undo
  subst state
  refine ⟨consistent.congr rfl rfl rfl, ?_, kept.sound.abort current,
    kept.logs.abort current (kept.undecided running), rfl, contents.trans live.symm,
    kept.files.grow grows, kept.catalog, ?_, ?_⟩
  · rw [settled, ← contents]
    exact .idle idle
  · intro change member
    exact kept.known change (List.mem_filter.mp member).1
  · rw [settled]
    exact kept.distinct.of_sameDefinitions same

omit [Runtime] in
/-- What a schema step does to storage: it drops a table, or keeps every table. -/
theorem SchemaStep.storage (step : SchemaStep s s') :
    s'.session = s.session ∧
      ((∃ table ∈ s.catalog, (∀ key, droppedBy s s' key = decide (key.1 = table)) ∧
          s'.catalog = s.catalog.erase table ∧ s'.storage = s.storage.dropTable table) ∨
        (∀ key, droppedBy s s' key = false) ∧
          ((∀ name ∈ s'.catalog, name ∈ s.catalog) ∧ s'.storage = s.storage ∨
            ∃ table, (∀ name ∈ s'.catalog, name = table ∨ name ∈ s.catalog) ∧
              s'.storage = s.storage.ensureTable table)) := by
  have grown : (∀ name ∈ s.catalog, name ∈ s'.catalog) → ∀ key, droppedBy s s' key = false :=
    fun grows key => decide_eq_false fun dropped => dropped.2 (grows _ dropped.1)
  have insert_grows : ∀ {catalog : Catalog} {table : String} {schema : TableSchema} {name : String},
      name ∈ catalog → name ∈ catalog.insert table schema :=
    fun member => ExtTreeMap.mem_insert.mpr (.inr member)
  have mem_insert : ∀ {catalog : Catalog} {table : String} {schema : TableSchema} {name : String},
      name ∈ catalog.insert table schema → name = table ∨ name ∈ catalog := by
    intro catalog table schema name member
    refine (ExtTreeMap.mem_insert.mp member).imp_left fun same => ?_
    exact (LawfulEqOrd.eq_of_compare same).symm
  cases step with
  | @createTable table columns catalog created =>
      obtain ⟨-, rfl⟩ := createTable_eq_ok created
      exact ⟨rfl, .inr ⟨grown fun name member => insert_grows member,
        .inr ⟨table, fun name => mem_insert, rfl⟩⟩⟩
  | @createKeyedTable table columns created catalog indexName key indexes create index add =>
      obtain ⟨-, rfl⟩ := createTable_eq_ok create
      obtain ⟨schema, found, -, rfl⟩ := addIndex_eq_ok add
      refine ⟨rfl, .inr ⟨grown fun name member => insert_grows (insert_grows member),
        .inr ⟨table, fun name member => ?_, rfl⟩⟩⟩
      rcases mem_insert member with same | member
      · exact .inl same
      · exact mem_insert member
  | createIndex known build create add =>
      obtain ⟨schema, found, -, rfl⟩ := addIndex_eq_ok add
      refine ⟨rfl, .inr ⟨grown fun name member => insert_grows member,
        .inl ⟨fun name member => ?_, rfl⟩⟩⟩
      rcases mem_insert member with same | member
      · exact same ▸ Map.mem_of_getElem?_eq_some found
      · exact member
  | @dropTable table catalog dropped =>
      obtain ⟨member, rfl⟩ := dropTable_eq_ok dropped
      refine ⟨rfl, .inl ⟨table, member, fun key => ?_, rfl, rfl⟩⟩
      simp only [droppedBy, ExtTreeMap.mem_erase, decide_eq_decide, ne_eq, Std.compare_eq_iff_eq]
      constructor
      · rintro ⟨inside, outside⟩
        by_contra differ
        exact outside ⟨fun same => differ same.symm, inside⟩
      · intro same
        exact ⟨same ▸ member, fun kept => kept.1 same.symm⟩

omit [Runtime] in
/-- A schema step clears the rows of the table it drops, and keeps the log. -/
theorem SchemaStep.rows (step : SchemaStep s s') (files : s.storage.FilesKnown) :
    s'.storage.contents =
        (fun key => if droppedBy s s' key then none else s.storage.contents key) ∧
      s'.storage.FilesKnown ∧ s'.storage.wal = s.storage.wal := by
  obtain ⟨-, ⟨table, -, dropped, -, storage⟩ | ⟨kept, ⟨-, storage⟩ | ⟨table, -, storage⟩⟩⟩ :=
    step.storage
  · simp only [storage, dropped, decide_eq_true_eq]
    exact ⟨contents_dropTable _ _, files.dropTable table, rfl⟩
  · simp only [storage, kept, Bool.false_eq_true, if_false, true_and]
    exact ⟨files, trivial⟩
  · simp only [storage, kept, Bool.false_eq_true, if_false, contents_ensureTable, true_and]
    exact ⟨files.ensureTable table, rfl⟩

omit [Runtime] in
theorem Kept.schema (kept : Kept s l)
    (outside : s.session.transaction.active = false ∨ s.session.autoCommit = true)
    (unchanged : ∀ change ∈ l.live, change.1 ∈ l.committed) (step : SchemaStep s s') :
    Kept s'.persisted (l.clear (droppedBy s s')) := by
  have session := step.storage.1
  obtain ⟨rows, files, wal⟩ := step.rows kept.files
  have consistent := kept.consistent.schemaStep step
  have contents : s'.storage.contents = cells (l.clear (droppedBy s s')).live := by
    rw [rows, kept.contents]
    exact (cells_clear _ _).symm
  have settled : (l.clear (droppedBy s s')).settled = s'.storage.contents := by
    rw [contents]
    exact Ledger.settled_of_committed fun change member =>
      unchanged change (List.mem_filter.mp member).1
  refine ⟨consistent.persisted, ?_, kept.sound.clear unchanged _, ?_,
    kept.running.trans (by rw [← session]; rfl), contents, files,
    loadTables_snapshot consistent.named, ?_, ?_⟩
  · rw [settled]
    refine Tracks.persisted ?_
    have tracks := kept.tracks
    generalize l.settled = start at tracks
    cases tracks with
    | idle idle => exact .idle (session.trans idle)
    | explicit explicit => rw [explicit] at outside; rcases outside with no | no <;> cases no
    | automatic automatic => exact .automatic (session.trans automatic)
  · change Logs s'.storage.wal _
    rw [wal]
    exact kept.logs.clear _
  · intro change member
    obtain ⟨member, stays⟩ := List.mem_filter.mp member
    have stays : droppedBy s s' change.2.key = false := by simpa using stays
    exact mem_of_not_droppedBy (kept.known change member) stays
  · rw [settled]
    exact consistent.agree.distinguishes

variable {named : String → Prop}

/-- **Memory and log hold what the ledger says**, in every state a session reaches. -/
theorem Reaches.kept (reached : Reaches named s l) : Kept s l := by
  induction reached with
  | start => exact kept_fresh
  | begin _ idle ih => exact ih.begin idle _
  | row _ running step _ ih => exact ih.row running step
  | commit _ running ih => exact ih.commit running
  | rollback _ running unchanged ran _ ih => exact ih.rollback running unchanged ran
  | schema _ outside unchanged step _ ih => exact ih.schema outside unchanged step
  | checkpoint _ ih => exact ih.checkpoint
  | persist _ ih => exact ih.persisted

/-- The tables of a reachable state have names of the given kind. -/
theorem Reaches.allowed (reached : Reaches named s l) : ∀ table ∈ s.storage.tables, named table := by
  induction reached with
  | start => exact fun table member => absurd member ExtTreeMap.not_mem_empty
  | row _ _ _ allowed | rollback _ _ _ _ allowed | schema _ _ _ _ allowed => exact allowed
  | begin _ _ ih | commit _ _ ih | persist _ ih => exact ih
  | checkpoint _ ih =>
      intro table member
      exact ih table (StorageEngine.tables_checkpoint _ ▸ member)

/-- What rolling back does to storage. -/
theorem Kept.storage_rollback {result : QueryResult} (kept : Kept s l)
    (running : s.session.transaction.txnId = some txnId)
    (ran : MoodengSQL.rollback s = .ok result s') :
    s'.catalog = s.catalog ∧ (∀ name ∈ s.storage.tables, name ∈ s'.storage.tables) ∧
      s'.storage.datFiles = s.storage.datFiles ∧
      s'.storage.wal.checkpointFile = s.storage.wal.checkpointFile := by
  obtain ⟨txnId', undone, -, running', undo, -, rfl⟩ := rollback_eq_ok.mp ran
  rw [running] at running'
  cases running'
  obtain ⟨tables, indexes, rfl, grows, -⟩ := kept.undone undo
  exact ⟨rfl, grows, rfl, rfl⟩

theorem Reaches.backed (reached : Reaches named s l) : Backed s := by
  induction reached with
  | start => exact fun table member => absurd member ExtTreeMap.not_mem_empty
  | begin _ _ ih | commit _ _ ih | persist _ ih => exact ih
  | row _ _ step _ ih =>
      obtain ⟨tables, stored, grows, -⟩ := step.stored
      intro table member
      rw [stored, StorageEngine.tables_log]
      exact grows table (ih table (step.catalog ▸ member))
  | rollback reached running _ ran _ ih =>
      obtain ⟨catalog, grows, -⟩ := reached.kept.storage_rollback running ran
      exact fun table member => grows table (ih table (catalog ▸ member))
  | @schema s s' l reached _ _ step _ ih =>
      change Backed s'
      obtain ⟨-, ⟨table, -, -, catalog, storage⟩ | ⟨-, ⟨fewer, storage⟩ | ⟨table, added, storage⟩⟩⟩ :=
        step.storage
      · intro name member
        rw [catalog] at member
        rw [storage]
        obtain ⟨differ, member⟩ := ExtTreeMap.mem_erase.mp member
        exact ExtTreeMap.mem_erase.mpr ⟨differ, ih name member⟩
      · intro name member
        rw [storage]
        exact ih name (fewer name member)
      · intro name member
        rw [storage]
        refine ExtTreeMap.mem_insertIfNew.mpr ?_
        rcases added name member with same | member
        · exact .inl (same ▸ Std.compare_self)
        · exact .inr (ih name member)
  | checkpoint _ ih =>
      intro table member
      rw [StorageEngine.tables_checkpoint]
      exact ih table member

omit [Runtime] in
theorem diskContents_empty : diskContents ∅ = fun _ => none := by
  funext key
  simp [diskContents, tablesView]

/-- **The files hold what the ledger says was saved**, as long as the names of the
tables can be those of files. -/
theorem Reaches.saved (reached : Reaches (isFileName · = true) s l) :
    diskContents s.storage.datFiles = cells l.saved := by
  induction reached with
  | start => exact diskContents_empty
  | begin _ _ ih | commit _ _ ih | persist _ ih => exact ih
  | @row s s' l txnId key change reached running step allowed ih =>
      obtain ⟨tables, stored, grows, -⟩ := step.stored
      have contents := (reached.kept.row running step).contents
      have same : s'.storage.tables = tables := by
        rw [stored, StorageEngine.tables_log]
      rw [stored, ledgerAfter, StorageEngine.log, StorageEngine.maybeCheckpoint]
      rw [ledgerAfter] at contents
      split
      · rename_i due
        rw [if_pos due] at contents
        refine (diskContents_checkpoint (reached.kept.files.grow grows) ?_).trans ?_
        · exact fun table member => allowed table (same ▸ member)
        · refine Eq.trans ?_ contents
          unfold StorageEngine.contents StorageEngine.view
          rw [same]
      · exact ih
  | rollback reached running _ ran _ ih =>
      rw [(reached.kept.storage_rollback running ran).2.2.1]
      exact ih
  | @schema s s' l reached _ _ step _ ih =>
      change diskContents s'.storage.datFiles = _
      have cleared : diskContents s'.storage.datFiles =
          fun key => if droppedBy s s' key then none else diskContents s.storage.datFiles key := by
        obtain ⟨-, ⟨table, known, dropped, -, storage⟩ | ⟨kept, ⟨-, storage⟩ | ⟨table, -, storage⟩⟩⟩ :=
          step.storage
        · simp only [storage, dropped, decide_eq_true_eq]
          exact diskContents_dropTable _ (reached.allowed table (reached.backed table known))
        all_goals
          simp only [storage, kept, Bool.false_eq_true, if_false, StorageEngine.ensureTable]
      rw [cleared, ih]
      exact (cells_clear _ _).symm
  | checkpoint reached _ =>
      exact (diskContents_checkpoint reached.kept.files reached.allowed).trans reached.kept.contents

/-- Before the first checkpoint nothing is saved, whatever the names of the tables. -/
theorem Reaches.unsaved (reached : Reaches named s l)
    (none : s.storage.wal.checkpointFile = none) :
    s.storage.datFiles = ∅ ∧ l.saved = [] := by
  induction reached with
  | start => exact ⟨rfl, rfl⟩
  | begin _ _ ih | commit _ _ ih | persist _ ih => exact ih none
  | @row s s' l txnId key change reached running step allowed ih =>
      obtain ⟨tables, stored, -⟩ := step.stored
      rw [stored, StorageEngine.log, StorageEngine.maybeCheckpoint] at none ⊢
      rw [ledgerAfter]
      split
      · rename_i due
        rw [if_pos due] at none
        unfold StorageEngine.checkpoint at none
        cases none
      · rename_i later
        rw [if_neg later] at none
        exact ih none
  | rollback reached running _ ran _ ih =>
      obtain ⟨-, -, files, mark⟩ := reached.kept.storage_rollback running ran
      rw [files]
      exact ih (mark ▸ none)
  | @schema s s' l reached _ _ step _ ih =>
      have wal := (step.rows reached.kept.files).2.2
      obtain ⟨files, saved⟩ := ih (wal ▸ none)
      have emptied : s'.storage.datFiles = ∅ := by
        obtain ⟨-, ⟨table, -, -, -, storage⟩ | ⟨-, ⟨-, storage⟩ | ⟨table, -, storage⟩⟩⟩ := step.storage
        all_goals
          rw [storage]
        · unfold StorageEngine.dropTable
          dsimp only
          rw [files]
          exact ExtTreeMap.erase_empty
        · exact files
        · exact files
      refine ⟨emptied, ?_⟩
      unfold Ledger.clear
      dsimp only
      rw [saved]
      rfl
  | checkpoint reached _ =>
      unfold StorageEngine.checkpoint at none
      cases none

end Reaches

end MoodengSQL
