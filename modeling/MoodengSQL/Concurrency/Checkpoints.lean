import MoodengSQL.Concurrency.LogOrder
import MoodengSQL.Recovery.Files

/-!
# Checkpoints among concurrent sessions

A checkpoint saves the tables one after another, reads the sequence number, marks
it and truncates the log, and holds no lock from the first of these steps to the
last. What it drops from the log is in the files as long as no session changes a
table that a checkpoint in progress has already saved.
-/

namespace MoodengSQL

open Foundation Foundation.Effect Interleaving Std

section Turns

/-- The table whose rows a turn changes. -/
def targetOf : Option LogPlace → Option String
  | some (.adding job _ _ _ _) => some job.table
  | some (.rewriting job _ _ _ _ _) => some job.table
  | some (.removing job _ _ _ _) => some job.table
  | _ => none

/-- A turn leaves the tables a session has still to save, takes it out of its
checkpoint, or begins one with every table still to be saved. -/
def SavesNext (db : Database) (before after : Option (List String)) : Prop :=
  after = none ∨ after = before ∨
    ∃ names, after = some names ∧ ∀ table ∈ db.storage.tables, table ∈ names

/-- What a turn can do to the tables and their files: nothing, a change of the
rows of one table, or the saving of one. -/
inductive FileTurn (db : Database) (client : Client LogPlace LogCall)
    (turn : Turn Database (Client LogPlace LogCall) WalEntry) : Prop
  | keeps (tables : turn.shared.storage.tables = db.storage.tables)
      (datFiles : turn.shared.storage.datFiles = db.storage.datFiles)
      (after : SavesNext db (toSaveOf client.phase) (toSaveOf turn.thread.phase))
  | changes (table : String) (target : targetOf client.phase = some table)
      (others : ∀ name, name ≠ table →
        turn.shared.storage.tables[name]? = db.storage.tables[name]?)
      (grows : ∀ name ∈ db.storage.tables, name ∈ turn.shared.storage.tables)
      (datFiles : turn.shared.storage.datFiles = db.storage.datFiles)
      (after : toSaveOf turn.thread.phase = none)
  | saves (table : String) (names : List String)
      (before : toSaveOf client.phase = some (table :: names))
      (storage : turn.shared.storage = db.storage.persistTable table)
      (after : toSaveOf turn.thread.phase = some names)

/-- A turn that leaves the storage as it is, and begins no checkpoint. -/
theorem fileTurn_of_leavesRows {db : Database} {client : Client LogPlace LogCall} {α : Type}
    {m : ExecM α} {next : α → Option LogPlace} (moves : Moves LeavesRows m)
    (returns : Returns (fun a => toSaveOf (next a) = none) m) :
    FileTurn db client (client.perform db m next fun _ => []) := by
  apply Client.perform_cases fun turn => FileTurn db client turn
  · intro a s ran
    obtain ⟨storage, -⟩ := moves.of_ok ran
    exact .keeps (congrArg StorageEngine.tables storage) (congrArg StorageEngine.datFiles storage)
      (.inl (returns ran))
  · intro e s failed
    obtain ⟨storage, -⟩ := moves.of_error failed
    exact .keeps (congrArg StorageEngine.tables storage) (congrArg StorageEngine.datFiles storage)
      (.inl rfl)

/-- A turn in which only the place of the session changes. -/
theorem fileTurn_of_same {db shared : Database} {client thread : Client LogPlace LogCall}
    {events : List WalEntry} (tables : shared.storage.tables = db.storage.tables)
    (datFiles : shared.storage.datFiles = db.storage.datFiles)
    (after : SavesNext db (toSaveOf client.phase) (toSaveOf thread.phase)) :
    FileTurn db client { shared, thread, events } := .keeps tables datFiles after

theorem toSave_of_inLoop {txnId : Nat} {m : ExecM LogPlace}
    (returns : Returns (LogPlace.InLoop txnId) m) :
    Returns (fun place => toSaveOf (some place) = none) m := by
  intro s place s' ran
  exact (returns ran).1.2

theorem fileTurn_enter (db : Database) (client : Client LogPlace LogCall) (job : WriteJob)
    (tasks : List RowTask) :
    FileTurn db client
      (client.perform db (some <$> enterTransaction job tasks) id fun _ => []) := by
  obtain ⟨⟨⟨active, txnId, undo⟩, autoCommit⟩, phase, program⟩ := client
  cases txnId with
  | some txnId => exact fileTurn_of_same rfl rfl (.inl rfl)
  | none => cases active <;> exact fileTurn_of_same rfl rfl (.inl rfl)

theorem fileTurn_leave (db : Database) (client : Client LogPlace LogCall) :
    FileTurn db client (client.perform db leaveTransaction id fun _ => []) := by
  obtain ⟨⟨⟨active, txnId, undo⟩, autoCommit⟩, phase, program⟩ := client
  cases autoCommit with
  | false => exact fileTurn_of_same rfl rfl (.inl rfl)
  | true => cases txnId <;> exact fileTurn_of_same rfl rfl (.inl rfl)

/-- A table put in place of another leaves the others, and takes none away. -/
theorem tables_insert (tables : Map String TableData) (table : String) (data : TableData) :
    (∀ name, name ≠ table → (tables.insert table data)[name]? = tables[name]?) ∧
      ∀ name ∈ tables, name ∈ tables.insert table data := by
  refine ⟨fun name other => ?_, fun name member => ExtTreeMap.mem_insert.mpr (.inr member)⟩
  rw [ExtTreeMap.getElem?_insert, if_neg]
  rw [Std.compare_eq_iff_eq]
  exact other.symm

/-- A change of one table leaves the others. -/
def ChangesOnly (table : String) (storage storage' : StorageEngine) : Prop :=
  (∀ name, name ≠ table → storage'.tables[name]? = storage.tables[name]?) ∧
    (∀ name ∈ storage.tables, name ∈ storage'.tables) ∧ storage'.datFiles = storage.datFiles

theorem changesOnly_update {storage storage' : StorageEngine} {table : String} {rowId : Nat}
    {row : Row} {expectedVersion : Nat} {stored : Option Row}
    (ran : storage.updateInMemory table rowId row expectedVersion = .ok (stored, storage')) :
    ChangesOnly table storage storage' := by
  unfold StorageEngine.updateInMemory at ran
  cases found : storage.tables[table]? with
  | none =>
      rw [found] at ran
      cases ran
  | some data =>
      rw [found] at ran
      dsimp only at ran
      split at ran
      · split at ran
        · cases ran
        · cases ran
          obtain ⟨others, grows⟩ := tables_insert storage.tables table (data.update rowId _ _)
          exact ⟨others, grows, rfl⟩
      · cases ran
        exact ⟨fun _ _ => rfl, fun _ => id, rfl⟩

theorem changesOnly_delete {storage storage' : StorageEngine} {table : String} {rowId : Nat}
    {deleted : Bool} (ran : storage.deleteInMemory table rowId = .ok (deleted, storage')) :
    ChangesOnly table storage storage' := by
  unfold StorageEngine.deleteInMemory at ran
  cases found : storage.tables[table]? with
  | none =>
      rw [found] at ran
      cases ran
  | some data =>
      rw [found] at ran
      cases ran
      obtain ⟨others, grows⟩ := tables_insert storage.tables table (data.delete rowId).2
      exact ⟨others, grows, rfl⟩

/-- The turn that changes the rows of a table, if it is accepted. -/
theorem fileTurn_of_change {db : Database} {client : Client LogPlace LogCall} {α : Type}
    {table : String} {op : StorageEngine → Except Failure (α × StorageEngine)}
    {next : α → ExecM (Option LogPlace)} (target : targetOf client.phase = some table)
    (changes : ∀ a storage', op db.storage = .ok (a, storage') →
      ChangesOnly table db.storage storage')
    (goesOn : ∀ a, ∃ place, next a = pure place ∧ toSaveOf place = none) :
    FileTurn db client
      (client.perform db (ExecM.liftStorage op >>= next) id fun _ => []) := by
  apply Client.perform_cases fun turn => FileTurn db client turn
  · intro place s ran
    obtain ⟨a, mid, changed, ended⟩ := bind_eq_ok.mp ran
    obtain ⟨storage, accepted, rfl⟩ := ExecM.liftStorage_eq_ok.mp changed
    obtain ⟨place, goes, after⟩ := goesOn a
    rw [goes] at ended
    obtain ⟨rfl, rfl⟩ := pure_eq_ok.mp ended
    obtain ⟨others, grows, datFiles⟩ := changes a storage accepted
    exact .changes table target others grows datFiles after
  · intro e s failed
    rcases bind_eq_error.mp failed with refused | ⟨a, mid, -, ended⟩
    · obtain ⟨-, rfl⟩ := ExecM.liftStorage_eq_error.mp refused
      exact .keeps rfl rfl (.inl rfl)
    · obtain ⟨place, goes, -⟩ := goesOn a
      rw [goes] at ended
      cases ended

variable [Runtime]

/-- A call begins outside a checkpoint, or at the start of one. -/
theorem started_savesNext {db : Database} {call : LogCall} {place : LogPlace}
    (started : call.start db = .ok place) (before : Option (List String)) :
    SavesNext db before place.toSave := by
  cases call with
  | insert stmt =>
      cases source : stmt.source with
      | none =>
          simp only [LogCall.start, source] at started
          cases started
      | some query =>
          simp only [LogCall.start, source] at started
          obtain ⟨schema, -, started⟩ := except_bind_eq_ok.mp started
          obtain ⟨rows, -, started⟩ := except_bind_eq_ok.mp started
          obtain ⟨onConflict, -, started⟩ := except_bind_eq_ok.mp started
          cases started
          exact .inl rfl
  | update table assignments whereClause =>
      obtain ⟨schema, -, started⟩ := except_bind_eq_ok.mp started
      cases started
      exact .inl rfl
  | delete table whereClause =>
      obtain ⟨schema, -, started⟩ := except_bind_eq_ok.mp started
      cases started
      exact .inl rfl
  | checkpoint =>
      cases started
      exact .inr (.inr ⟨_, rfl, fun _ => mem_tableNames.mpr⟩)

/-- **What a turn does to the tables and their files.** It leaves them alone,
changes one table, or saves one. -/
theorem logStep_files {db : Database} {client : Client LogPlace LogCall}
    (within : WithinOf client.session.transaction.txnId client.phase) :
    FileTurn db client (logStep db client) := by
  obtain ⟨session, phase, program⟩ := client
  cases phase with
  | none =>
      cases program with
      | nil => exact fileTurn_of_same rfl rfl (.inl rfl)
      | cons call rest =>
          dsimp only [logStep]
          cases started : call.start db with
          | error e => exact fileTurn_of_same rfl rfl (.inl rfl)
          | ok place => exact fileTurn_of_same rfl rfl (started_savesNext started none)
  | some place =>
      cases place with
      | starting job tasks => exact fileTurn_enter db _ job tasks
      | looping job txnId tasks count =>
          cases tasks with
          | nil => exact fileTurn_leave db _
          | cons task rest =>
              exact fileTurn_of_leavesRows (moves_some (leavesRows_begin _ _ _ _ _))
                (returns_some (toSave_of_inLoop (inLoop_begin job txnId task rest count)))
      | conflicting job txnId proposed existingId update rest count =>
          exact fileTurn_of_leavesRows (moves_some (leavesRows_readyConflict _ _ _ _ _ _ _))
            (returns_some (toSave_of_inLoop
              (inLoop_readyConflict job txnId proposed existingId update rest count)))
      | adding job txnId rowValues rest count =>
          obtain ⟨others, grows⟩ := tables_insert db.storage.tables job.table
            ((db.storage.tables.getD job.table .empty).insert (Row.new rowValues)).2
          exact .changes job.table rfl others grows rfl rfl
      | rewriting job txnId rowId row rest count =>
          refine fileTurn_of_change rfl (fun _ _ => changesOnly_update) fun stored => ?_
          cases stored <;> exact ⟨_, rfl, rfl⟩
      | removing job txnId rowId rest count =>
          refine fileTurn_of_change rfl (fun _ _ => changesOnly_delete) fun deleted => ?_
          cases deleted <;> exact ⟨_, rfl, rfl⟩
      | indexing job rowId values next =>
          exact fileTurn_of_leavesRows (.seq (leavesRows_insertIndexRow _ _ _ _) fun _ => .ret _)
            (.seq fun _ => .ret within.1.2)
      | recording entry next =>
          exact fileTurn_of_leavesRows (.seq (leavesRows_recordUndo _) fun _ => .ret _)
            (.seq fun _ => .ret within.1.2)
      | checking next =>
          dsimp only [logStep, LogPlace.run]
          apply Client.perform_cases fun turn => FileTurn db _ turn
          · intro place s ran
            obtain ⟨s', mid, read, ended⟩ := bind_eq_ok.mp ran
            obtain ⟨rfl, rfl⟩ := get_eq_ok.mp read
            split at ended
            · obtain ⟨rfl, rfl⟩ := pure_eq_ok.mp ended
              exact fileTurn_of_same rfl rfl (.inr (.inr ⟨_, rfl, fun _ => mem_tableNames.mpr⟩))
            · obtain ⟨rfl, rfl⟩ := pure_eq_ok.mp ended
              exact fileTurn_of_same rfl rfl (.inl within.1.2)
          · intro e s failed
            rcases bind_eq_error.mp failed with read | ⟨s', mid, -, ended⟩
            · cases read
            · split at ended <;> cases ended
      | saving names next =>
          cases names with
          | nil => exact fileTurn_of_same rfl rfl (.inr (.inl rfl))
          | cons table names => exact .saves table names rfl rfl rfl
      | marking lsn next => exact fileTurn_of_same rfl rfl (.inr (.inl rfl))
      | numbering op next => exact fileTurn_of_same rfl rfl (.inl rfl)
      | opened job txnId tasks => exact fileTurn_of_same rfl rfl (.inl rfl)
      | closing => exact fileTurn_of_same rfl rfl (.inl rfl)
      | persisting => exact fileTurn_of_same rfl rfl (.inl rfl)
      | writing entry next => exact fileTurn_of_same rfl rfl (.inl within.1.2)
      | truncating next => exact fileTurn_of_same rfl rfl (.inl rfl)
      | resetting next => exact fileTurn_of_same rfl rfl (.inl within.1.2)

/-- A session stays within its transaction, also when the log is truncated. -/
theorem within_logStep {db : Database} {client : Client LogPlace LogCall}
    (within : WithinOf client.session.transaction.txnId client.phase) :
    WithinOf (logStep db client).thread.session.transaction.txnId
      (logStep db client).thread.phase := by
  cases truncates : truncatesAt client.phase with
  | false => exact (logStep_cases within truncates).2
  | true =>
      obtain ⟨session, phase, program⟩ := client
      cases phase with
      | none => cases truncates
      | some place =>
          cases place with
          | truncating next => exact within
          | resetting next => exact within.2
          | _ => cases truncates

end Turns

section Runs

variable {ι : Type}

/-- What is in the files: every table that a checkpoint in progress has no longer
to save, if the names of the tables can be those of files. -/
structure Logging.Saved (config : Logging ι) : Prop where
  within : ∀ i, WithinOf (config.threads i).session.transaction.txnId (config.threads i).phase
  known : config.shared.storage.FilesKnown
  saved : config.shared.storage.FileNames → ∀ i names,
    toSaveOf (config.threads i).phase = some names →
    ∀ table data, config.shared.storage.tables[table]? = some data → table ∉ names →
      config.shared.storage.datFiles[tablePath table]? = some (.written data)

/-- The condition on a turn: it changes only a table that every checkpoint in
progress has still to save. -/
def Logging.ChangesUnsaved (config : Logging ι) (i : ι) : Prop :=
  ∀ table ∈ targetOf (config.threads i).phase, ∀ j,
    ∀ names ∈ toSaveOf (config.threads j).phase, table ∈ names

instance [Fintype ι] (config : Logging ι) (i : ι) : Decidable (config.ChangesUnsaved i) :=
  inferInstanceAs (Decidable (∀ _ ∈ _, ∀ _, ∀ _ ∈ _, _))

theorem datFiles_persistTable {storage : StorageEngine} (plain : storage.FileNames)
    {table name : String} {data : TableData} (found : storage.tables[name]? = some data)
    (saved : name ≠ table → storage.datFiles[tablePath name]? = some (.written data)) :
    (storage.persistTable table).datFiles[tablePath name]? = some (.written data) := by
  rw [getElem?_persistTable]
  by_cases same : name = table
  · rw [same, if_pos rfl, ← same, found]
    rfl
  · split
    · rename_i leads
      -- another table that is in memory has another file
      have missing : storage.tables[table]? = none := ExtTreeMap.getElem?_eq_none fun member =>
        same ((tablePath_inj (plain name (Map.mem_of_getElem?_eq_some found))
          (plain table member)).mp leads)
      rw [missing]
      exact saved same
    · exact saved same

section Turn

variable {config config' : Logging ι} {i : ι}
  {turn : Turn Database (Client LogPlace LogCall) WalEntry}

/-- No turn removes a table. -/
theorem FileTurn.grows {db : Database} {client : Client LogPlace LogCall}
    (turned : FileTurn db client turn) :
    ∀ name ∈ db.storage.tables, name ∈ turn.shared.storage.tables := by
  intro name member
  cases turned with
  | keeps tables datFiles after => exact tables ▸ member
  | changes table target others grows datFiles after => exact grows name member
  | saves table names before storage after =>
      rw [storage, StorageEngine.tables_persistTable]
      exact member

/-- What a session has to save after a turn, it had to save before, or it is the
session whose turn it was. -/
theorem Logging.Advanced.toSave_cases (advanced : config.Advanced config' i turn)
    {claim : Prop} {j : ι} {names : List String}
    (now : toSaveOf (config'.threads j).phase = some names)
    (own : toSaveOf turn.thread.phase = some names → claim)
    (others : toSaveOf (config.threads j).phase = some names → claim) : claim := by
  by_cases same : j = i
  · subst same
    rw [advanced.own] at now
    exact own now
  · rw [advanced.others j same] at now
    exact others now

/-- A turn keeps what is saved in the files. -/
theorem Logging.Saved.advance (saved : config.Saved) (advanced : config.Advanced config' i turn)
    (turned : FileTurn config.shared (config.threads i) turn)
    (within : WithinOf turn.thread.session.transaction.txnId turn.thread.phase)
    (unsaved : config.ChangesUnsaved i) : config'.Saved := by
  refine ⟨advanced.within saved.within within, ?_,
    fun plain j names now table data found absent => ?_⟩
  · rw [advanced.shared]
    cases turned with
    | keeps tables datFiles after =>
        intro path member taken
        rw [datFiles] at member
        rw [tables]
        exact saved.known path member taken
    | changes table target others grows datFiles after =>
        intro path member taken
        rw [datFiles] at member
        obtain ⟨name, inMemory, leads⟩ := saved.known path member taken
        exact ⟨name, grows name inMemory, leads⟩
    | saves table names before storage after =>
        rw [storage]
        exact filesKnown_persistTable saved.known table
  · have plain : config.shared.storage.FileNames := fun name member =>
      plain name (advanced.shared ▸ turned.grows name member)
    have saved := saved.saved plain
    rw [advanced.shared] at found ⊢
    cases turned with
    | keeps tables datFiles after =>
        rw [tables] at found
        rw [datFiles]
        refine advanced.toSave_cases now (fun own => ?_) fun earlier =>
          saved j names earlier table data found absent
        rcases after with none | same | ⟨all, begun, listed⟩
        · cases none.symm.trans own
        · exact saved i names (same.symm.trans own) table data found absent
        · cases begun.symm.trans own
          exact absurd (listed table (ExtTreeMap.mem_iff_isSome_getElem?.mpr
            (Option.isSome_of_mem found))) absent
    | changes target targeted others grows datFiles after =>
        rw [datFiles]
        refine advanced.toSave_cases now (fun own => ?_) fun earlier => ?_
        · cases after.symm.trans own
        · have other : table ≠ target := by
            rintro rfl
            exact absent (unsaved table targeted j names earlier)
          rw [others table other] at found
          exact saved j names earlier table data found absent
    | saves target left before storage after =>
        rw [storage, StorageEngine.tables_persistTable] at found
        rw [storage]
        refine datFiles_persistTable plain found fun other => ?_
        refine advanced.toSave_cases now (fun own => ?_) fun earlier =>
          saved j names earlier table data found absent
        cases after.symm.trans own
        refine saved i _ before table data found fun member => ?_
        rcases List.mem_cons.mp member with same | member
        · exact other same
        · exact absent member

end Turn

variable [Runtime] [DecidableEq ι]

/-- Runs keep what is saved in the files. -/
theorem Logging.saved_run {db : Database} {programs : ι → List LogCall} {schedule : List ι}
    (known : db.storage.FilesKnown)
    (unsaved : Along logStep Logging.ChangesUnsaved (Logging.start db programs) schedule) :
    Logging.Saved (run logStep (Logging.start db programs) schedule) := by
  have initially : (Logging.start db programs).Saved :=
    ⟨fun _ => trivial, known, fun _ _ _ saving => (by cases saving)⟩
  refine Along.run_invariant logStep Logging.Saved (fun config i condition saved => ?_)
    initially unsaved
  exact saved.advance (Logging.advanced config i) (logStep_files (saved.within i))
    (within_logStep (saved.within i)) condition

omit [Runtime] [DecidableEq ι] in
/-- When a checkpoint has saved every table, the files have the tables in memory. -/
theorem Logging.Saved.loadAll_eq {config : Logging ι} (saved : config.Saved)
    (plain : config.shared.storage.FileNames) {i : ι}
    (done : toSaveOf (config.threads i).phase = some []) :
    StorageEngine.loadAll config.shared.storage.datFiles = config.shared.storage.tables := by
  refine ExtTreeMap.ext_getElem? fun table => ?_
  cases found : config.shared.storage.tables[table]? with
  | some data =>
      rw [StorageEngine.getElem?_loadAll_of_isFileName
        (plain table (Map.mem_of_getElem?_eq_some found)),
        saved.saved plain i [] done table data found List.not_mem_nil]
      rfl
  | none =>
      refine ExtTreeMap.getElem?_eq_none fun loaded => ?_
      have missing := ExtTreeMap.isSome_getElem?_iff_mem.mpr (saved.known.mem_tables plain loaded)
      rw [found] at missing
      cases missing

omit [Runtime] [DecidableEq ι] in
theorem toSaveOf_truncating {phase : Option LogPlace} {next : LogPlace}
    (truncates : phase = some (.truncating next)) : toSaveOf phase = some [] := by
  rw [truncates]
  rfl

end Runs

section Reflected

/-- The rows may be such that a change has been made and, it may be, later ones of its
row: the id has been given out, and versions only grow. -/
def WalOp.ReflectedIn (storage : StorageEngine) (op : WalOp) : Prop :=
  ∀ key ∈ op.rowKey, key.2 < storage.nextId key.1 ∧ match op with
    | .insert _ _ _ row | .update _ _ _ row =>
        ∀ now ∈ storage.view key, row.version ≤ now.version
    | .delete _ _ _ => storage.view key = none
    | _ => True

variable {storage storage' : StorageEngine} {op made : WalOp} {key : RowKey} {row : Option Row}

theorem WalOp.ReflectedIn.of_same (reflected : op.ReflectedIn storage)
    (view : storage'.view = storage.view)
    (nextIds : ∀ table, storage.nextId table ≤ storage'.nextId table) :
    op.ReflectedIn storage' := by
  intro key keyed
  obtain ⟨given, change⟩ := reflected key keyed
  refine ⟨given.trans_le (nextIds key.1), ?_⟩
  rw [view]
  exact change

theorem WalOp.ReflectedIn.of_tables (reflected : op.ReflectedIn storage)
    (tables : storage'.tables = storage.tables) : op.ReflectedIn storage' :=
  reflected.of_same (congrArg tablesView tables) fun table => Nat.le_of_eq <| by
    rw [StorageEngine.nextId, StorageEngine.nextId, tables]

/-- A change is reflected in the rows it leaves. -/
theorem RecordOf.reflectedIn (recorded : RecordOf storage.view op key row)
    (keyed : op.rowKey = some key)
    (view : storage'.view = Function.update storage.view key row)
    (bound : key.2 < storage'.nextId key.1) : op.ReflectedIn storage' := by
  intro other keyed'
  obtain rfl := Option.some.inj (keyed.symm.trans keyed')
  refine ⟨bound, ?_⟩
  rw [view, Function.update_self]
  cases recorded with
  | insert txnId table rowId row =>
      rintro now ⟨⟩
      exact Nat.le_refl _
  | update txnId table rowId row old stored version =>
      rintro now ⟨⟩
      exact Nat.le_refl _
  | delete txnId table rowId old stored => rfl

/-- A change of a row leaves the earlier ones reflected, if new rows get new ids. -/
theorem WalOp.ReflectedIn.change (reflected : op.ReflectedIn storage)
    (recorded : RecordOf storage.view made key row)
    (view : storage'.view = Function.update storage.view key row)
    (nextIds : ∀ table, storage.nextId table ≤ storage'.nextId table)
    (fresh : made.insertedRow = some key → storage.nextId key.1 ≤ key.2) :
    op.ReflectedIn storage' := by
  intro other keyed
  obtain ⟨given, change⟩ := reflected other keyed
  refine ⟨given.trans_le (nextIds other.1), ?_⟩
  rw [view]
  by_cases same : other = key
  · subst same
    rw [Function.update_self]
    cases recorded with
    | insert txnId table rowId row => exact absurd (fresh rfl) (Nat.not_le.mpr given)
    | update txnId table rowId row old stored version =>
        cases op with
        | insert txnId table rowId first =>
            rintro now ⟨⟩
            exact (change old stored).trans (version ▸ Nat.le_succ _)
        | update txnId table rowId first =>
            rintro now ⟨⟩
            exact (change old stored).trans (version ▸ Nat.le_succ _)
        | delete txnId table rowId =>
            exact absurd (stored.symm.trans change) (Option.some_ne_none old)
        | _ => trivial
    | delete txnId table rowId old stored =>
        cases op with
        | insert txnId table rowId first => exact fun _ => nofun
        | update txnId table rowId first => exact fun _ => nofun
        | delete txnId table rowId => rfl
        | _ => trivial
  · rw [Function.update_of_ne same]
    exact change

end Reflected

/-- The operation of the record in hand. -/
def InHand.op : InHand → Option WalOp
  | .nothing => none
  | .unnumbered op => some op
  | .unwritten entry => some entry.2

section Reflecting

variable {ι : Type} {config config' : Logging ι} {i : ι}
  {turn : Turn Database (Client LogPlace LogCall) WalEntry}

/-- The changes whose records are in the log or in hand are among the rows. -/
structure Logging.Reflects (config : Logging ι) : Prop where
  written : ∀ entry ∈ config.shared.storage.wal.file, entry.2.ReflectedIn config.shared.storage
  held : ∀ j, ∀ op ∈ (config.held j).op, op.ReflectedIn config.shared.storage

/-- A turn keeps the changes reflected, and so is one it has made. -/
theorem Logging.Reflects.advance (reflects : config.Reflects)
    (advanced : config.Advanced config' i turn)
    (kept : ∀ op : WalOp, op.ReflectedIn config.shared.storage →
      op.ReflectedIn turn.shared.storage)
    (file : ∀ entry ∈ turn.shared.storage.wal.file,
      entry ∈ config.shared.storage.wal.file ∨ entry.2 ∈ (config.held i).op)
    (hand : ∀ op ∈ (inHandOf turn.thread.phase).op,
      op ∈ (config.held i).op ∨ op.ReflectedIn turn.shared.storage) : config'.Reflects := by
  constructor
  · rw [advanced.shared]
    intro entry member
    rcases file entry member with before | held
    · exact kept _ (reflects.written entry before)
    · exact kept _ (reflects.held i _ held)
  · rw [advanced.shared]
    intro j op held
    by_cases same : j = i
    · subst same
      rw [advanced.held_own] at held
      exact (hand op held).elim (fun before => kept op (reflects.held j op before)) id
    · rw [advanced.held_other same] at held
      exact kept op (reflects.held j op held)

/-- A turn that does not truncate the log keeps the changes reflected. -/
theorem Logging.Reflects.of_logTurn (reflects : config.Reflects)
    (advanced : config.Advanced config' i turn)
    (turned : LogTurn config.shared (config.threads i) turn)
    (aimed : aimOf (config.threads i).phase ≠ none → ∀ op,
      inHandOf turn.thread.phase = .unnumbered op → op.insertedRow = none) :
    config'.Reflects := by
  cases turned with
  | quiet view nextIds file lsn events before after runs =>
      refine reflects.advance advanced (fun op reflected => reflected.of_same view nextIds)
        (fun entry member => .inl (file ▸ member)) fun op held => .inr ?_
      rcases after with none | ⟨control, keyless, after⟩
      · rw [none] at held
        cases held
      · rw [after] at held
        cases held
        intro key keyed
        cases keyless.symm.trans keyed
  | changes op key row keyed recorded view nextIds bound place file lsn events before after txnId
      own =>
      refine reflects.advance advanced (fun op reflected => ?_)
        (fun entry member => .inl (file ▸ member)) fun op held => .inr ?_
      · refine reflected.change recorded view nextIds fun inserted =>
          place.resolve_left fun aim => ?_
        cases (aimed (aim ▸ Option.some_ne_none key) _ after).symm.trans inserted
      · rw [after] at held
        cases held
        exact recorded.reflectedIn keyed view bound
  | draws op tables file lsn events before after txnId kind =>
      refine reflects.advance advanced (fun op reflected => reflected.of_tables tables)
        (fun entry member => .inl (file ▸ member)) fun op held => .inl ?_
      rw [after] at held
      rw [Logging.held, before]
      exact held
  | writes entry tables file lsn events before after txnId =>
      refine reflects.advance advanced (fun op reflected => reflected.of_tables tables)
        (fun other member => ?_) fun op held => ?_
      · rw [file] at member
        refine (List.mem_append.mp member).imp_right fun last => ?_
        rw [List.mem_singleton.mp last, Logging.held, before]
        rfl
      · rw [after] at held
        cases held

variable [Runtime]

/-- An update or a delete leaves no `INSERT` to be logged. -/
theorem logStep_aimed {db : Database} {client : Client LogPlace LogCall}
    (aims : aimOf client.phase ≠ none) {op : WalOp}
    (after : inHandOf (logStep db client).thread.phase = .unnumbered op) :
    op.insertedRow = none := by
  let changesOnly := fun phase : Option LogPlace =>
    ∀ op, inHandOf phase = .unnumbered op → op.insertedRow = none
  have runs : ∀ {place : LogPlace}, Returns changesOnly place.run →
      client.phase = some place → changesOnly (logStep db client).thread.phase := by
    intro place returns stands
    unfold logStep
    rw [stands]
    apply Client.perform_cases
      fun turn : Turn Database (Client LogPlace LogCall) WalEntry => changesOnly turn.thread.phase
    · exact fun next s ran => returns ran
    · exact fun e s failed => nofun
  refine (?_ : changesOnly _) op after
  cases stands : client.phase with
  | none => exact absurd (stands ▸ rfl) aims
  | some place =>
      cases place with
      | rewriting job txnId rowId row rest count =>
          refine runs (.seq fun stored => ?_) stands
          cases stored with
          | none => exact .ret nofun
          | some stored =>
              refine .ret fun op held => ?_
              cases held
              rfl
      | removing job txnId rowId rest count =>
          refine runs (.seq fun deleted => ?_) stands
          cases deleted with
          | false => exact .ret nofun
          | true =>
              refine .ret fun op held => ?_
              cases held
              rfl
      | _ => exact absurd (stands ▸ rfl) aims

/-- Truncating the log and resetting its numbers leaves the rows alone. -/
theorem logStep_truncates {db : Database} {client : Client LogPlace LogCall}
    (within : WithinOf client.session.transaction.txnId client.phase)
    (truncates : truncatesAt client.phase = true) :
    (logStep db client).shared.storage.tables = db.storage.tables ∧
      (∀ entry ∈ (logStep db client).shared.storage.wal.file, entry ∈ db.storage.wal.file) ∧
      inHandOf (logStep db client).thread.phase = .nothing := by
  obtain ⟨session, phase, program⟩ := client
  cases phase with
  | none => cases truncates
  | some place =>
      cases place with
      | truncating next => exact ⟨rfl, fun _ => nofun, rfl⟩
      | resetting next => exact ⟨rfl, fun _ => id, within.1.1⟩
      | _ => cases truncates

/-- Every turn keeps the changes reflected. -/
theorem Logging.Reflects.logStep (reflects : config.Reflects)
    (within : WithinOf (config.threads i).session.transaction.txnId (config.threads i).phase)
    (advanced : config.Advanced config' i
      (MoodengSQL.logStep config.shared (config.threads i))) : config'.Reflects := by
  cases truncates : truncatesAt (config.threads i).phase with
  | false =>
      exact reflects.of_logTurn advanced (logStep_cases within truncates).1
        fun aims op after => logStep_aimed aims after
  | true =>
      obtain ⟨tables, file, idle⟩ := @logStep_truncates _ config.shared _ within truncates
      refine reflects.advance advanced (fun op reflected => reflected.of_tables tables)
        (fun entry member => .inl (file entry member)) fun op held => ?_
      rw [idle] at held
      cases held

/-- The changes whose records are in the log are among the rows, all along a run. -/
theorem Logging.reflects_run [DecidableEq ι] {db : Database} {programs : ι → List LogCall}
    (reflected : ∀ entry ∈ db.storage.wal.file, entry.2.ReflectedIn db.storage)
    (schedule : List ι) :
    Logging.Reflects (run MoodengSQL.logStep (Logging.start db programs) schedule) := by
  let inv := fun config : Logging ι => config.Reflects ∧
    ∀ i, WithinOf (config.threads i).session.transaction.txnId (config.threads i).phase
  have initially : inv (Logging.start db programs) :=
    ⟨⟨reflected, fun _ _ => nofun⟩, fun _ => trivial⟩
  refine (run_invariant MoodengSQL.logStep inv (fun config i ⟨reflects, within⟩ => ?_)
    initially schedule).1
  have advanced := Logging.advanced config i
  exact ⟨reflects.logStep (within i) advanced, advanced.within within (within_logStep (within i))⟩

/-- **A checkpoint drops no record of a change it has not saved**, as long as no turn
changes a table that a checkpoint in progress has already saved. However the turns of
any number of sessions and their checkpoints interleave: when a session has truncated
the log and the names of the tables can be those of files, the change of every record
that was in the log is in what opening the files alone gives, and its row is there as
it is in memory. -/
theorem checkpoint_drops_saved_records [DecidableEq ι] (db : Database)
    (programs : ι → List LogCall) (schedule : List ι) (known : db.storage.FilesKnown)
    (reflected : ∀ entry ∈ db.storage.wal.file, entry.2.ReflectedIn db.storage)
    (unsaved : Along logStep Logging.ChangesUnsaved (Logging.start db programs) schedule)
    (i : ι) (next : LogPlace)
    (truncates : ((run logStep (Logging.start db programs) schedule).threads i).phase =
      some (.truncating next))
    (plain : (run logStep (Logging.start db programs) schedule).shared.storage.FileNames) :
    let before := run logStep (Logging.start db programs) schedule
    let after := (advance logStep before i).shared.storage
    let files := StorageEngine.open (.open [] after.wal.checkpointFile) after.datFiles
    after.wal.file = [] ∧ ∀ entry ∈ before.shared.storage.wal.file,
      entry.2.ReflectedIn files ∧
        ∀ key ∈ entry.2.rowKey, files.contents key = after.contents key := by
  intro before after files
  have saved : Logging.Saved before := Logging.saved_run known unsaved
  have reflects : Logging.Reflects before := Logging.reflects_run reflected schedule
  have turned : after = { before.shared.storage with
      wal := { before.shared.storage.wal with file := [] } } := by
    change (logStep before.shared (before.threads i)).shared.storage = _
    unfold logStep
    rw [truncates]
    rfl
  have loaded : files.tables = before.shared.storage.tables := by
    change StorageEngine.loadAll after.datFiles = _
    rw [turned]
    exact saved.loadAll_eq plain (toSaveOf_truncating truncates)
  have rows : files.contents = after.contents := by
    unfold StorageEngine.contents StorageEngine.view
    rw [loaded, turned]
  refine ⟨turned ▸ rfl, fun entry member => ⟨?_, fun key _ => congrFun rows key⟩⟩
  exact (reflects.written entry member).of_tables loaded

end Reflecting

section Example

/-- A session inserts a row, and another takes a checkpoint. -/
def insertAndCheckpoint : Bool → List LogCall
  | true => [insertCall 1]
  | false => [.checkpoint]

/-- The row is changed after the checkpoint has begun, but before its table is saved;
its record is written when the log is about to be truncated. -/
def lateTurns : List Bool :=
  [false] ++ List.replicate 8 true ++ List.replicate 3 false ++ [true]

theorem filesKnown_oneTable : oneTable.storage.FilesKnown := by
  have none : oneTable.storage.datFiles.keys = [] := by
    decide +kernel
  intro path member
  rw [← ExtTreeMap.mem_keys, none] at member
  cases member

theorem fileNames_lateTurns : (run (@logStep Runtime.reference)
    (Logging.start oneTable insertAndCheckpoint) lateTurns).shared.storage.FileNames := by
  have named : ∀ name ∈ (run (@logStep Runtime.reference)
      (Logging.start oneTable insertAndCheckpoint) lateTurns).shared.storage.tables.keys,
      isFileName name = true := by
    decide +kernel
  exact fun name member => named name (ExtTreeMap.mem_keys.mpr member)

/-- The files reflect the `INSERT` whose record is dropped. -/
theorem checkpoint_drops_saved_records_late :
    let before := run (@logStep Runtime.reference) (Logging.start oneTable insertAndCheckpoint)
      lateTurns
    let after := (advance (@logStep Runtime.reference) before false).shared.storage
    let files := StorageEngine.open (.open [] after.wal.checkpointFile) after.datFiles
    (2, .insert 1 "t" 1 ⟨[.int4 1], 1⟩) ∈ before.shared.storage.wal.file ∧
      after.wal.file = [] ∧ ∀ entry ∈ before.shared.storage.wal.file,
        entry.2.ReflectedIn files ∧
          ∀ key ∈ entry.2.rowKey, files.contents key = after.contents key := by
  have fresh : oneTable.storage.wal.file = [] := by
    decide +kernel
  have reflected : ∀ entry ∈ oneTable.storage.wal.file, entry.2.ReflectedIn oneTable.storage := by
    rw [fresh]
    exact fun _ => nofun
  exact ⟨by decide +kernel, @checkpoint_drops_saved_records Bool Runtime.reference _ oneTable
    insertAndCheckpoint lateTurns filesKnown_oneTable reflected (by decide +kernel)
    false .persisting (by rfl) fileNames_lateTurns⟩

/-- The row is inserted after its table is saved, and its record is written before the
log is truncated. -/
def lostTurns : List Bool :=
  List.replicate 3 false ++ List.replicate 9 true ++ [false]

/-- The log is truncated with the record of the row, which is in memory, and the files
do not have it. -/
theorem checkpoint_drops_unsaved_record :
    let before := run (@logStep Runtime.reference) (Logging.start oneTable insertAndCheckpoint)
      lostTurns
    let after := (advance (@logStep Runtime.reference) before false).shared.storage
    (2, .insert 1 "t" 1 ⟨[.int4 1], 1⟩) ∈ before.shared.storage.wal.file ∧
      after.wal.file = [] ∧ after.contents ("t", 1) = some [.int4 1] ∧
      (StorageEngine.open (.open [] after.wal.checkpointFile) after.datFiles).contents ("t", 1) =
        none := by
  decide +kernel

end Example

end MoodengSQL
