import MoodengSQL.Concurrency.Clients
import MoodengSQL.Execution.Runs

/-!
# Concurrent updates

Clients that run `UPDATE` statements, alone or in transactions that commit. A
statement reads its rows in one step and stores each of them in a later one;
what other clients do in between shows as a version conflict. Row locks only
take interleavings away, so they are left out.
-/

namespace MoodengSQL

open Foundation Foundation.Effect Interleaving

section Statement

/-- The body of `UPDATE` on a row up to the call of `storage.update`. -/
def prepareRow [Runtime] (table : String) (schema : TableSchema) (assignments : List Assignment)
    (rowId : Nat) (row : Row) : ExecM (List Value) := do
  recordUndo (.update table rowId row)
  ExecM.removeIndexRow table row.values schema.colNames rowId
  let values ← ExecM.lift (assignAll schema none assignments row.values)
  ExecM.lift (validateRow schema values)
  return values

/-- The body of `UPDATE` on a row is its three steps. -/
theorem rewriteRow_eq [Runtime] (table : String) (schema : TableSchema)
    (assignments : List Assignment) (txnId rowId : Nat) (row : Row) :
    rewriteRow table schema assignments none txnId rowId row = (do
      let values ← prepareRow table schema assignments rowId row
      let _ ← ExecM.liftStorage fun storage =>
        storage.update table rowId { row with values } txnId row.version
      ExecM.insertIndexRow table values schema.colNames rowId) := by
  simp only [rewriteRow, prepareRow, bind_assoc, pure_bind]

/-- What a client asks for. -/
inductive UpdateCall where
  | begin
  | commit
  | update (table : String) (assignments : List Assignment) (whereClause : Option Expr)

/-- An `UPDATE` statement with the schema it looked up. -/
structure UpdateJob where
  table : String
  schema : TableSchema
  assignments : List Assignment
  whereClause : Option Expr

/-- Where a statement stands between its steps. -/
inductive UpdatePlace where
  | scanned (rows : List (Nat × Row))
  | looping (txnId : Nat) (rows : List (Nat × Row)) (count : Nat)
  | storing (txnId rowId : Nat) (row : Row) (values : List Value) (rest : List (Nat × Row))
      (count : Nat)
  | indexing (txnId rowId : Nat) (values : List Value) (rest : List (Nat × Row)) (count : Nat)

/-- A statement under way. -/
structure Updating where
  job : UpdateJob
  place : UpdatePlace

/-- A call of `storage.update`: the row the statement had scanned, the storage
before and after, and what was returned. -/
structure UpdateAttempt where
  job : UpdateJob
  rowId : Nat
  scanned : Row
  before : StorageEngine
  after : StorageEngine
  result : Except Failure Bool

/-- The steps that are recorded: scans and calls of `storage.update`. -/
inductive UpdateEvent where
  | scan (job : UpdateJob) (storage : StorageEngine)
  | attempt (attempt : UpdateAttempt)

variable [Runtime]

/-- A turn of a client that runs `UPDATE` statements. -/
def updateStep (db : Database) (client : Client Updating UpdateCall) :
    Turn Database (Client Updating UpdateCall) UpdateEvent :=
  match client.phase with
  | none => match client.program with
    | [] => .wait db client
    | .begin :: rest => { client with program := rest }.perform db begin (fun _ => none) fun _ => []
    | .commit :: rest => { client with program := rest }.perform db commit (fun _ => none) fun _ => []
    | .update table assignments whereClause :: rest =>
        match db.catalog.getTable table with
        | .error _ => { shared := db, thread := { client with program := rest }, events := [] }
        | .ok schema =>
            let job := { table, schema, assignments, whereClause }
            { shared := db
              thread := { client with
                phase := some { job, place := .scanned (db.storage.scan table) }
                program := rest }
              events := [.scan job db.storage] }
  | some { job, place } => match place with
    | .scanned rows =>
        client.perform db beginWriteTxn
          (fun txnId => some { job, place := .looping txnId rows 0 }) fun _ => []
    | .looping _ [] _ =>
        client.perform db finishAutoCommitIfNeeded (fun _ => none) fun _ => []
    | .looping txnId ((rowId, row) :: rest) count =>
        client.perform db
          (do
            if ← ExecM.lift (selects job.whereClause row job.schema.colNames) then
              some <$> prepareRow job.table job.schema job.assignments rowId row
            else return none)
          (fun
            | some values => some { job, place := .storing txnId rowId row values rest count }
            | none => some { job, place := .looping txnId rest count })
          fun _ => []
    | .storing txnId rowId row values rest count =>
        match db.storage.update job.table rowId { row with values } txnId row.version with
        | .ok (changed, storage) => {
            shared := { db with storage }
            thread := { client with
              phase := some { job, place := .indexing txnId rowId values rest count } }
            events := [.attempt {
              job, rowId, scanned := row, before := db.storage, after := storage,
              result := .ok changed }] }
        | .error e => {
            shared := db
            thread := { client with phase := none }
            events := [.attempt {
              job, rowId, scanned := row, before := db.storage, after := db.storage,
              result := .error e }] }
    | .indexing txnId rowId values rest count =>
        client.perform db
          (ExecM.insertIndexRow job.table values job.schema.colNames rowId)
          (fun _ => some { job, place := .looping txnId rest (count + 1) }) fun _ => []

/-- What is left of a statement when no other client takes a turn. -/
def updateRemaining : Option Updating → ExecM PUnit
  | none => pure ⟨⟩
  | some { job, place } => match place with
    | .scanned rows => do
        let txnId ← beginWriteTxn
        let _ ← updateRows job.table job.schema job.assignments job.whereClause txnId rows 0
        finishAutoCommitIfNeeded
    | .looping txnId rows count => do
        let _ ← updateRows job.table job.schema job.assignments job.whereClause txnId rows count
        finishAutoCommitIfNeeded
    | .storing txnId rowId row values rest count => do
        let _ ← ExecM.liftStorage fun storage =>
          storage.update job.table rowId { row with values } txnId row.version
        ExecM.insertIndexRow job.table values job.schema.colNames rowId
        let _ ← updateRows job.table job.schema job.assignments job.whereClause txnId rest
          (count + 1)
        finishAutoCommitIfNeeded
    | .indexing txnId rowId values rest count => do
        ExecM.insertIndexRow job.table values job.schema.colNames rowId
        let _ ← updateRows job.table job.schema job.assignments job.whereClause txnId rest
          (count + 1)
        finishAutoCommitIfNeeded

/-- The turns of a client follow its statement. -/
theorem updateStep_remaining (db : Database) {client : Client Updating UpdateCall}
    (running : client.phase ≠ none) :
    let turn := updateStep db client
    finalState (updateRemaining turn.thread.phase) (turn.thread.executor turn.shared) =
      finalState (updateRemaining client.phase) (client.executor db) := by
  obtain ⟨⟨job, place⟩, running⟩ := Option.ne_none_iff_exists'.mp running
  rw [running]
  unfold updateStep
  rw [running]
  cases place with
  | scanned rows => exact client.perform_remaining db _ _ _ updateRemaining rfl
  | looping txnId rows count =>
      cases rows with
      | nil =>
          refine (client.perform_remaining db _ _ _ updateRemaining rfl).trans ?_
          simp only [updateRemaining, updateRows, pure_bind]
          exact finalState_bind_pure _ _ _
      | cons entry rest =>
          refine (client.perform_remaining db _ _ _ updateRemaining rfl).trans ?_
          simp only [updateRemaining, updateRows, rewriteRow_eq, bind_assoc]
          congr 2
          funext selected
          cases selected <;> simp
  | storing txnId rowId row values rest count =>
      dsimp only
      cases stored : db.storage.update job.table rowId { row with values } txnId row.version with
      | ok result =>
          obtain ⟨changed, storage⟩ := result
          have ran : (ExecM.liftStorage fun storage =>
              storage.update job.table rowId { row with values } txnId row.version)
              (client.executor db) = .ok changed { client.executor db with storage } := by
            simp only [ExecM.liftStorage, Client.executor, stored]
          dsimp only [updateRemaining]
          rw [finalState_bind_of_ok ran]
          rfl
      | error e =>
          have ran : (ExecM.liftStorage fun storage =>
              storage.update job.table rowId { row with values } txnId row.version)
              (client.executor db) = .error e (client.executor db) := by
            simp only [ExecM.liftStorage, Client.executor, stored]
          dsimp only [updateRemaining]
          rw [finalState_bind_of_error ran]
          rfl
  | indexing txnId rowId values rest count =>
      exact client.perform_remaining db _ _ _ updateRemaining rfl

/-- The turns a statement has still to take, at most. -/
def Updating.turns : Option Updating → Nat
  | none => 0
  | some { place, .. } => match place with
    | .scanned rows => 3 * rows.length + 2
    | .looping _ rows _ => 3 * rows.length + 1
    | .storing _ _ _ _ rest _ => 3 * rest.length + 3
    | .indexing _ _ _ rest _ => 3 * rest.length + 2

theorem updateStep_turns (db : Database) {client : Client Updating UpdateCall}
    (running : client.phase ≠ none) :
    Updating.turns (updateStep db client).thread.phase < Updating.turns client.phase := by
  obtain ⟨⟨job, place⟩, running⟩ := Option.ne_none_iff_exists'.mp running
  unfold updateStep
  rw [running]
  cases place with
  | scanned rows =>
      apply Client.perform_cases fun turn => Updating.turns turn.thread.phase < _
      all_goals simp [Updating.turns]
  | looping txnId rows count =>
      cases rows with
      | nil =>
          apply Client.perform_cases fun turn => Updating.turns turn.thread.phase < _
          all_goals simp [Updating.turns]
      | cons entry rest =>
          apply Client.perform_cases fun turn => Updating.turns turn.thread.phase < _
          · intro prepared s ran
            cases prepared with
            | some values => simp [Updating.turns, Nat.mul_add]
            | none => simp [Updating.turns]
          · simp [Updating.turns]
  | storing txnId rowId row values rest count =>
      dsimp only
      split <;> simp [Updating.turns]
  | indexing txnId rowId values rest count =>
      apply Client.perform_cases fun turn => Updating.turns turn.thread.phase < _
      all_goals simp [Updating.turns]

/-- The first turn of a statement reads its rows. -/
theorem updateStep_scan (db : Database) {client : Client Updating UpdateCall} {table : String}
    {assignments : List Assignment} {whereClause : Option Expr} {program : List UpdateCall}
    (idle : client.phase = none)
    (calls : client.program = .update table assignments whereClause :: program) :
    let turn := updateStep db client
    finalState (updateRemaining turn.thread.phase) (turn.thread.executor turn.shared) =
      finalState (update table assignments whereClause) (client.executor db) := by
  have started : finalState (update table assignments whereClause) (client.executor db) =
      finalState (do
        let schema ← ExecM.lift (db.catalog.getTable table)
        let txnId ← beginWriteTxn
        let count ← updateRows table schema assignments whereClause txnId
          (db.storage.scan table) 0
        finishAutoCommitIfNeeded
        return QueryResult.modified count ("UPDATE " ++ toString count)) (client.executor db) := rfl
  rw [started]
  unfold updateStep
  rw [idle, calls]
  dsimp only
  cases found : db.catalog.getTable table with
  | error e => rfl
  | ok schema =>
      rw [finalState_bind_of_ok (ExecM.lift_eq_ok.mpr ⟨rfl, rfl⟩)]
      refine finalState_bind_congr (fun txnId s => ?_) _
      refine finalState_bind_congr (fun count s => ?_) s
      exact (finalState_bind_pure _ _ s).symm

/-- **A client that is left alone runs `UPDATE` as the executor does.** It comes
to the end of the statement, with the database and the session the statement
leaves. -/
theorem update_alone {ι : Type} [DecidableEq ι] {table : String} {assignments : List Assignment}
    {whereClause : Option Expr} {program : List UpdateCall} (i : ι)
    (config : Configuration ι Database (Client Updating UpdateCall) UpdateEvent)
    (idle : (config.threads i).phase = none)
    (calls : (config.threads i).program = .update table assignments whereClause :: program) :
    ∃ turns, let finish := run updateStep config (List.replicate turns i)
      (finish.threads i).phase = none ∧
        (finish.threads i).executor finish.shared =
          finalState (update table assignments whereClause)
            ((config.threads i).executor config.shared) := by
  obtain ⟨turns, finished, same⟩ := run_alone updateStep (fun client => client.phase ≠ none)
    (fun client => Updating.turns client.phase)
    (fun shared client => finalState (updateRemaining client.phase) (client.executor shared))
    (fun shared _ running => updateStep_turns shared running)
    (fun shared _ running => updateStep_remaining shared running) i (advance updateStep config i)
  have ended := not_ne_iff.mp finished
  refine ⟨turns + 1, ended, ?_⟩
  rw [ended] at same
  refine same.trans ?_
  have own : (advance updateStep config i).threads i =
      (updateStep config.shared (config.threads i)).thread := Function.update_self _ _ _
  rw [own]
  dsimp only [advance]
  exact updateStep_scan config.shared idle calls

end Statement

section Versions

/-- The row stored under a key is the one that was read, or a later version. -/
def Behind (storage : StorageEngine) (key : RowKey) (row : Row) : Prop :=
  ∃ current, storage.view key = some current ∧ (current = row ∨ row.version < current.version)

/-- No row is lost, and those that change get a later version. -/
def Grows (storage storage' : StorageEngine) : Prop :=
  ∀ key row, storage.view key = some row → Behind storage' key row

theorem Behind.grows {storage storage' : StorageEngine} {key : RowKey} {row : Row}
    (behind : Behind storage key row) (grows : Grows storage storage') :
    Behind storage' key row := by
  obtain ⟨current, stored, order⟩ := behind
  obtain ⟨later, stored', order'⟩ := grows key current stored
  refine ⟨later, stored', ?_⟩
  rcases order with rfl | order
  · exact order'
  · rcases order' with rfl | order'
    · exact .inr order
    · exact .inr (order.trans order')

theorem grows_of_view {storage storage' : StorageEngine} (same : storage'.view = storage.view) :
    Grows storage storage' := fun _ row stored => ⟨row, (congrFun same _).trans stored, .inl rfl⟩

/-- Replacing a row by its next version. -/
theorem grows_of_replaced {storage storage' : StorageEngine} {key : RowKey} {row : Row}
    {values : List Value} (stored : storage.view key = some row)
    (replaced : storage'.view =
      Function.update storage.view key (some { values, version := row.version + 1 })) :
    Grows storage storage' := by
  intro other current found
  by_cases same : other = key
  · subst same
    obtain rfl : row = current := Option.some.inj (stored.symm.trans found)
    refine ⟨_, (congrFun replaced other).trans (Function.update_self _ _ _), .inr ?_⟩
    exact Nat.lt_succ_self _
  · exact ⟨current, (congrFun replaced other).trans
      ((Function.update_of_ne same _ _).trans found), .inl rfl⟩

/-- `storage.update` on a row that was read before: the row read is still the
one stored, and its next version replaces it, or the call is refused. -/
theorem update_behind [Runtime] {storage : StorageEngine} {table : String} {rowId : Nat}
    {row : Row} (behind : Behind storage (table, rowId) row) (values : List Value)
    (txnId : Nat) :
    (storage.view (table, rowId) = some row ∧ ∃ storage',
        storage.update table rowId { row with values } txnId row.version = .ok (true, storage') ∧
        storage'.view = Function.update storage.view (table, rowId)
          (some { values, version := row.version + 1 })) ∨
      storage.update table rowId { row with values } txnId row.version =
        .error (.error (.versionConflict table rowId)) := by
  obtain ⟨current, stored, order⟩ := behind
  cases outcome : storage.update table rowId { row with values } txnId row.version with
  | ok result =>
      obtain ⟨changed, storage'⟩ := result
      rcases StorageEngine.update_outcome outcome with ⟨-, missing, -⟩ |
        ⟨rfl, existing, tables, found, version, rfl, -, view⟩
      · rw [stored] at missing
        cases missing
      · obtain rfl : current = existing := Option.some.inj (stored.symm.trans found)
        obtain rfl : current = row := order.resolve_right (version ▸ Nat.lt_irrefl _)
        exact .inl ⟨stored, _, rfl, (StorageEngine.view_log _ _ _).trans view⟩
  | error e =>
      rcases StorageEngine.update_refused outcome with ⟨missing, -⟩ | ⟨-, -, -, rfl⟩
      · simp [StorageEngine.view, tablesView, missing] at stored
      · exact .inr rfl

end Versions

section Turns

variable [Runtime]

omit [Runtime] in
/-- The tables in memory are the same. -/
def SameTables (s s' : Executor) : Prop := s'.storage.tables = s.storage.tables

instance : IsPreorder Executor SameTables where
  refl _ := rfl
  trans _ _ _ first second := second.trans first

omit [Runtime] in
theorem SameTables.view {s s' : Executor} (same : SameTables s s') :
    s'.storage.view = s.storage.view := congrArg tablesView same

/-- The rows a statement may still store. -/
def UpdatePlace.rows : UpdatePlace → List (Nat × Row)
  | .scanned rows => rows
  | .looping _ rows _ => rows
  | .storing _ rowId row _ rest _ => (rowId, row) :: rest
  | .indexing _ _ _ rest _ => rest

/-- The values to store come from the row that was scanned. -/
def Updating.Computed (updating : Updating) : Prop :=
  match updating.place with
  | .storing _ _ row values _ _ =>
      assignAll updating.job.schema none updating.job.assignments row.values = .ok values
  | _ => True

/-- A place of the same statement with no more rows to store. -/
def Updating.Follows (before after : Option Updating) : Prop :=
  ∀ next, after = some next → ∃ updating, before = some updating ∧ next.job = updating.job ∧
    next.place.rows ⊆ updating.place.rows ∧ next.Computed

theorem Updating.follows_none (before : Option Updating) : Updating.Follows before none := nofun

/-- What a turn can do: nothing to the rows, scan them, or call
`storage.update`. -/
inductive UpdateTurn (db : Database) (client : Client Updating UpdateCall)
    (turn : Turn Database (Client Updating UpdateCall) UpdateEvent) : Prop
  | quiet (events : turn.events = []) (view : turn.shared.storage.view = db.storage.view)
      (follows : Updating.Follows client.phase turn.thread.phase)
  | scan (job : UpdateJob) (events : turn.events = [.scan job db.storage])
      (shared : turn.shared = db)
      (phase : turn.thread.phase =
        some { job, place := .scanned (db.storage.scan job.table) })
  | attempt (job : UpdateJob) (txnId rowId : Nat) (row : Row) (values : List Value)
      (rest : List (Nat × Row)) (count : Nat) (result : Except Failure Bool)
      (phase : client.phase =
        some { job, place := .storing txnId rowId row values rest count })
      (events : turn.events = [.attempt {
        job, rowId, scanned := row, before := db.storage, after := turn.shared.storage, result }])
      (called :
        db.storage.update job.table rowId { row with values } txnId row.version =
          result.map fun changed => (changed, turn.shared.storage))
      (refused : ∀ e, result = .error e → turn.shared = db)
      (place : ∀ after, turn.thread.phase = some after →
        after.job = job ∧ after.place.rows = rest ∧ after.Computed)

/-- A computation that leaves the tables alone is a quiet turn. -/
theorem updateTurn_perform {α : Type} {db : Database} {client : Client Updating UpdateCall}
    (program : List UpdateCall) {m : ExecM α} {next : α → Option Updating}
    (same : Moves SameTables m)
    (follows : ∀ a s, m (client.executor db) = .ok a s →
      Updating.Follows client.phase (next a)) :
    UpdateTurn db client (Client.perform { client with program } db m next fun _ => []) := by
  apply Client.perform_cases (UpdateTurn db client)
  · intro a s ran
    exact .quiet rfl (same.of_ok ran).view (follows a s ran)
  · intro e s ran
    exact .quiet rfl (same.of_error ran).view (Updating.follows_none _)

theorem sameTables_prepareRow (table : String) (schema : TableSchema)
    (assignments : List Assignment) (rowId : Nat) (row : Row) :
    Moves SameTables (prepareRow table schema assignments rowId row) :=
  .seq (Moves.recordUndo (fun _ _ => rfl) _) fun _ =>
    .seq (Moves.removeIndexRow (fun _ _ _ => rfl) _ _ _ _) fun _ =>
      .seq (Moves.lift _) fun _ => .seq (Moves.lift _) fun _ => .ret _

theorem prepareRow_ok {table : String} {schema : TableSchema} {assignments : List Assignment}
    {rowId : Nat} {row : Row} {values : List Value} {s s' : Executor}
    (ran : prepareRow table schema assignments rowId row s = .ok values s') :
    assignAll schema none assignments row.values = .ok values := by
  unfold prepareRow at ran
  obtain ⟨-, s₁, -, ran⟩ := bind_eq_ok.mp ran
  obtain ⟨-, s₂, -, ran⟩ := bind_eq_ok.mp ran
  obtain ⟨assigned, s₃, lifted, ran⟩ := bind_eq_ok.mp ran
  obtain ⟨-, s₄, -, ran⟩ := bind_eq_ok.mp ran
  obtain ⟨rfl, -⟩ := pure_eq_ok.mp ran
  exact (ExecM.lift_eq_ok.mp lifted).1

/-- The part of the row loop before `storage.update`. -/
theorem updateTurn_looping {db : Database} {client : Client Updating UpdateCall}
    {job : UpdateJob} {txnId count rowId : Nat} {row : Row} {rest : List (Nat × Row)}
    (running : client.phase =
      some { job, place := .looping txnId ((rowId, row) :: rest) count }) :
    UpdateTurn db client (updateStep db client) := by
  unfold updateStep
  rw [running]
  apply updateTurn_perform client.program
  · refine .seq (Moves.lift _) fun selected => ?_
    split
    · exact .seq (sameTables_prepareRow _ _ _ _ _) fun _ => .ret _
    · exact .ret _
  · intro prepared s ran
    obtain ⟨selected, s₁, -, ran⟩ := bind_eq_ok.mp ran
    cases prepared with
    | none =>
        rintro next ⟨⟩
        exact ⟨_, running, rfl, List.subset_cons_self _ _, trivial⟩
    | some values =>
        rintro next ⟨⟩
        refine ⟨_, running, rfl, List.Subset.refl _, ?_⟩
        split at ran
        · rw [map_eq_pure_bind] at ran
          obtain ⟨assigned, s₂, assigns, ran⟩ := bind_eq_ok.mp ran
          obtain ⟨⟨⟩, -⟩ := pure_eq_ok.mp ran
          exact prepareRow_ok assigns
        · obtain ⟨⟨⟩, -⟩ := pure_eq_ok.mp ran

/-- Every turn is of one of the kinds. -/
theorem updateStep_turn (db : Database) (client : Client Updating UpdateCall) :
    UpdateTurn db client (updateStep db client) := by
  cases running : client.phase with
  | none =>
      unfold updateStep
      rw [running]
      dsimp only
      split
      · exact .quiet rfl rfl (running ▸ Updating.follows_none _)
      · exact updateTurn_perform _ (Moves.begin fun _ _ _ _ => rfl)
          fun _ _ _ => Updating.follows_none _
      · exact updateTurn_perform _ (Moves.commit fun _ _ _ _ => rfl)
          fun _ _ _ => Updating.follows_none _
      · split
        · exact .quiet rfl rfl (by simp [Updating.Follows, running])
        · exact .scan _ rfl rfl rfl
  | some updating =>
      obtain ⟨job, place⟩ := updating
      cases place with
      | scanned rows =>
          unfold updateStep
          rw [running]
          apply updateTurn_perform client.program (Moves.beginWriteTxn fun _ _ _ _ => rfl)
          rintro txnId s - next ⟨⟩
          exact ⟨_, running, rfl, List.Subset.refl rows, trivial⟩
      | looping txnId rows count =>
          cases rows with
          | nil =>
              unfold updateStep
              rw [running]
              exact updateTurn_perform client.program
                (Moves.finishAutoCommitIfNeeded fun _ _ _ _ => rfl)
                fun _ _ _ => Updating.follows_none _
          | cons entry rest => exact updateTurn_looping running
      | storing txnId rowId row values rest count =>
          unfold updateStep
          rw [running]
          dsimp only
          cases called : db.storage.update job.table rowId { row with values } txnId
              row.version with
          | ok result =>
              obtain ⟨changed, storage⟩ := result
              refine .attempt job txnId rowId row values rest count (.ok changed) running rfl
                called nofun ?_
              rintro after ⟨⟩
              exact ⟨rfl, rfl, trivial⟩
          | error e =>
              exact .attempt job txnId rowId row values rest count (.error e) running rfl called
                (fun _ _ => rfl) nofun
      | indexing txnId rowId values rest count =>
          unfold updateStep
          rw [running]
          apply updateTurn_perform client.program
            (Moves.insertIndexRow (fun _ _ _ => rfl) _ _ _ _)
          rintro u s - after ⟨⟩
          exact ⟨_, running, rfl, List.Subset.refl rest, trivial⟩

end Turns

section Runs

variable [Runtime] {ι : Type}

/-- The statements whose `storage.update` succeeded on a row, in order. -/
def successes (key : RowKey) (history : List (ι × UpdateEvent)) : List UpdateJob :=
  history.filterMap fun entry => match entry.2 with
    | .attempt attempt => match attempt.result with
      | .ok true => if (attempt.job.table, attempt.rowId) = key then some attempt.job else none
      | _ => none
    | .scan _ _ => none

/-- The values of a row after the assignments of statements, one after another. -/
def assignEach (jobs : List UpdateJob) (values : List Value) : Except Failure (List Value) :=
  jobs.foldlM (fun values job => assignAll job.schema none job.assignments values) values

/-- A row that statements have changed, each once and in order. -/
def Transformed (before : Option Row) (jobs : List UpdateJob) (after : Option Row) : Prop :=
  match before with
  | none => jobs = [] ∧ after = none
  | some row => ∃ values, assignEach jobs row.values = .ok values ∧
      after = some { values, version := row.version + jobs.length }

/-- The call replaced the row the statement had scanned, and no other. -/
def UpdateAttempt.Replaced (attempt : UpdateAttempt) : Prop :=
  attempt.result = .ok true ∧
    attempt.before.view (attempt.job.table, attempt.rowId) = some attempt.scanned ∧
    ∃ values,
      assignAll attempt.job.schema none attempt.job.assignments attempt.scanned.values =
        .ok values ∧
      attempt.after.view = Function.update attempt.before.view (attempt.job.table, attempt.rowId)
        (some { values, version := attempt.scanned.version + 1 })

/-- The call returned `VersionConflict` and changed nothing. -/
def UpdateAttempt.Conflicted (attempt : UpdateAttempt) : Prop :=
  attempt.result = .error (.error (.versionConflict attempt.job.table attempt.rowId)) ∧
    attempt.after = attempt.before

/-- The client had read the row in the scan of the statement. -/
def HadScanned (history : List (ι × UpdateEvent)) (i : ι) (job : UpdateJob) (entry : Nat × Row) :
    Prop :=
  ∃ storage, (i, UpdateEvent.scan job storage) ∈ history ∧ entry ∈ storage.scan job.table

/-- What is said of every recorded step, with the steps before it. -/
def SoundUpdate (history : List (ι × UpdateEvent)) (i : ι) : UpdateEvent → Prop
  | .scan _ _ => True
  | .attempt attempt =>
      HadScanned history i attempt.job (attempt.rowId, attempt.scanned) ∧
        (attempt.Replaced ∨ attempt.Conflicted)

/-- The rows are the initial ones, changed by the calls that succeeded. -/
def UpdatesKept (start : StorageEngine) (history : List (ι × UpdateEvent)) (db : Database) :
    Prop :=
  Justified SoundUpdate history ∧
    ∀ key, Transformed (start.view key) (successes key history) (db.storage.view key)

/-- A statement holds rows it has read, and none of them is ahead of storage. -/
def ScansBehind (i : ι) (history : List (ι × UpdateEvent)) (db : Database)
    (client : Client Updating UpdateCall) : Prop :=
  ∀ updating, client.phase = some updating → updating.Computed ∧
    ∀ entry ∈ updating.place.rows, HadScanned history i updating.job entry ∧
      Behind db.storage (updating.job.table, entry.1) entry.2

omit [Runtime] in
theorem HadScanned.append {history : List (ι × UpdateEvent)} {i : ι} {job : UpdateJob}
    {entry : Nat × Row} (scanned : HadScanned history i job entry)
    (events : List (ι × UpdateEvent)) : HadScanned (history ++ events) i job entry := by
  obtain ⟨storage, member, row⟩ := scanned
  exact ⟨storage, List.mem_append_left _ member, row⟩

theorem assignEach_concat {jobs : List UpdateJob} {job : UpdateJob}
    {before between after : List Value}
    (first : assignEach jobs before = .ok between)
    (last : assignAll job.schema none job.assignments between = .ok after) :
    assignEach (jobs ++ [job]) before = .ok after := by
  unfold assignEach at *
  rw [List.foldlM_append, first]
  simp [Bind.bind, Except.bind, Pure.pure, Except.pure, last]

omit [Runtime] in
/-- A call that succeeded counts for its row. -/
theorem successes_concat (key : RowKey) (history : List (ι × UpdateEvent)) (i : ι)
    {attempt : UpdateAttempt} (replaced : attempt.result = .ok true) :
    successes key (history ++ [(i, .attempt attempt)]) = successes key history ++
      if (attempt.job.table, attempt.rowId) = key then [attempt.job] else [] := by
  unfold successes
  rw [List.filterMap_append]
  split <;> simp [*]

omit [Runtime] in
/-- Other steps do not. -/
theorem successes_concat_other (key : RowKey) (history : List (ι × UpdateEvent)) (i : ι)
    {event : UpdateEvent} (other : ∀ attempt, event = .attempt attempt → attempt.result ≠ .ok true) :
    successes key (history ++ [(i, event)]) = successes key history := by
  unfold successes
  rw [List.filterMap_append]
  cases event with
  | scan job storage => simp
  | attempt attempt =>
      have refused := other attempt rfl
      cases result : attempt.result with
      | error e => simp [result]
      | ok changed => cases changed <;> simp_all

/-- A call that replaced the row a statement had scanned adds its assignments. -/
theorem Transformed.concat {before : Option Row} {jobs : List UpdateJob} {job : UpdateJob}
    {row : Row} {values : List Value} (transformed : Transformed before jobs (some row))
    (assigned : assignAll job.schema none job.assignments row.values = .ok values) :
    Transformed before (jobs ++ [job]) (some { values, version := row.version + 1 }) := by
  cases before with
  | none => cases transformed.2
  | some initial =>
      obtain ⟨between, first, same⟩ := transformed
      cases same
      refine ⟨values, assignEach_concat first assigned, ?_⟩
      simp [Nat.add_assoc]

/-- What a call of `storage.update` comes to when no row is ahead of storage. -/
theorem UpdateTurn.attempted {db : Database} {job : UpdateJob} {txnId rowId : Nat} {row : Row}
    {values : List Value} {result : Except Failure Bool} {after : StorageEngine}
    (behind : Behind db.storage (job.table, rowId) row)
    (computed : assignAll job.schema none job.assignments row.values = .ok values)
    (called : db.storage.update job.table rowId { row with values } txnId row.version =
      result.map fun changed => (changed, after))
    (refused : ∀ e, result = .error e → after = db.storage) :
    UpdateAttempt.Replaced
        { job, rowId, scanned := row, before := db.storage, after, result } ∨
      UpdateAttempt.Conflicted
        { job, rowId, scanned := row, before := db.storage, after, result } := by
  rcases update_behind behind values txnId with ⟨stored, storage, ran, view⟩ | ran
  · rw [ran] at called
    cases result with
    | error e => cases called
    | ok changed =>
        cases called
        exact .inl ⟨rfl, stored, values, computed, view⟩
  · rw [ran] at called
    cases result with
    | ok changed => cases called
    | error e =>
        cases called
        exact .inr ⟨rfl, refused _ rfl⟩

variable {start : StorageEngine}

/-- A turn keeps every row, and gives those it changes a later version. -/
theorem updateStep_grows {history : List (ι × UpdateEvent)} {i : ι} {db : Database}
    {client : Client Updating UpdateCall} (behind : ScansBehind i history db client) :
    Grows db.storage (updateStep db client).shared.storage := by
  cases updateStep_turn db client with
  | quiet events view follows => exact grows_of_view view
  | scan job events shared phase => exact grows_of_view (by rw [shared])
  | attempt job txnId rowId row values rest count result phase events called refused place =>
      obtain ⟨computed, pending⟩ := behind _ phase
      obtain ⟨-, scanned⟩ := pending (rowId, row) List.mem_cons_self
      rcases UpdateTurn.attempted scanned computed called fun e failed => by rw [refused e failed]
        with ⟨-, stored, values, -, view⟩ | ⟨-, same⟩
      · exact grows_of_replaced stored view
      · exact grows_of_view (congrArg StorageEngine.view same)

/-- Statements that hold rows they have read do not disturb one another. -/
theorem updates_guarded :
    Guarded updateStep (fun _ _ => True)
      (fun history : List (ι × UpdateEvent) => UpdatesKept start history) ScansBehind where
  shared history db i client _ kept behind := by
    obtain ⟨justified, transformed⟩ := kept
    cases updateStep_turn db client with
    | quiet events view follows =>
        rw [events, List.map_nil, List.append_nil]
        exact ⟨justified, fun key => view ▸ transformed key⟩
    | scan job events shared phase =>
        rw [events, shared]
        refine ⟨justified.concat trivial, fun key => ?_⟩
        rw [List.map_singleton, successes_concat_other]
        · exact transformed key
        · rintro attempt ⟨⟩
    | attempt job txnId rowId row values rest count result phase events called refused place =>
        obtain ⟨computed, pending⟩ := behind _ phase
        obtain ⟨scanned, stale⟩ := pending (rowId, row) List.mem_cons_self
        have outcome := UpdateTurn.attempted stale computed called
          fun e failed => by rw [refused e failed]
        rw [events, List.map_singleton]
        refine ⟨justified.concat ⟨scanned, outcome⟩, fun key => ?_⟩
        rcases outcome with ⟨replaced, stored, values, assigned, view⟩ | ⟨conflict, same⟩
        · rw [successes_concat key history i replaced, view]
          by_cases changed : (job.table, rowId) = key
          · subst changed
            rw [if_pos rfl, Function.update_self]
            exact (stored ▸ transformed (job.table, rowId)).concat assigned
          · rw [if_neg changed, Function.update_of_ne (Ne.symm changed), List.append_nil]
            exact transformed key
        · rw [successes_concat_other]
          · exact congrArg StorageEngine.view same ▸ transformed key
          · rintro attempt ⟨⟩ replaced
            cases conflict.symm.trans replaced
  own history db i client _ kept behind := by
    have grows := updateStep_grows behind
    intro updating phase
    cases updateStep_turn db client with
    | quiet events view follows =>
        obtain ⟨before, running, job, rows, computed⟩ := follows updating phase
        obtain ⟨-, pending⟩ := behind before running
        refine ⟨computed, fun entry member => ?_⟩
        obtain ⟨scanned, stale⟩ := pending entry (rows member)
        rw [job]
        exact ⟨scanned.append _, stale.grows grows⟩
    | scan job events shared scanning =>
        cases scanning.symm.trans phase
        refine ⟨trivial, fun entry member => ⟨⟨db.storage, ?_, member⟩, ?_⟩⟩
        · rw [events]
          exact List.mem_append_right _ List.mem_cons_self
        · rw [shared]
          exact ⟨entry.2, StorageEngine.mem_scan.mp member, .inl rfl⟩
    | attempt job txnId rowId row values rest count result running events called refused place =>
        obtain ⟨same, rows, computed⟩ := place updating phase
        obtain ⟨-, pending⟩ := behind _ running
        refine ⟨computed, fun entry member => ?_⟩
        obtain ⟨scanned, stale⟩ := pending entry (List.mem_cons_of_mem _ (rows ▸ member))
        rw [same]
        exact ⟨scanned.append _, stale.grows grows⟩
  others history db i client j other _ _ kept behind pending := by
    have grows := updateStep_grows behind
    intro updating phase
    obtain ⟨computed, rows⟩ := pending updating phase
    refine ⟨computed, fun entry member => ?_⟩
    obtain ⟨scanned, stale⟩ := rows entry member
    exact ⟨scanned.append _, stale.grows grows⟩

variable [DecidableEq ι]

omit [Runtime] [DecidableEq ι] in
/-- Clients with the calls they will make, between statements. -/
def updateClients (db : Database) (sessions : ι → Session) (programs : ι → List UpdateCall) :
    Configuration ι Database (Client Updating UpdateCall) UpdateEvent where
  shared := db
  threads i := { session := sessions i, phase := none, program := programs i }
  history := []

/-- **Concurrent updates are never lost.** Whatever any number of clients call
and however their steps interleave, every call of `storage.update` that returns
`Ok(true)` replaced the very row version its client had scanned, every other
one returned `VersionConflict` and changed nothing, and each row holds its
initial values transformed by the successful updates, once each and in the order
in which they succeeded. -/
theorem updates_never_lost (db : Database) (sessions : ι → Session)
    (programs : ι → List UpdateCall) (schedule : List ι) :
    let finish := run updateStep (updateClients db sessions programs) schedule
    Justified SoundUpdate finish.history ∧
      ∀ key, Transformed (db.storage.view key) (successes key finish.history)
        (finish.shared.storage.view key) := by
  have initially : HoldsWith (UpdatesKept db.storage) ScansBehind
      (updateClients db sessions programs) := by
    refine ⟨⟨justified_nil _, fun key => ?_⟩, fun i => nofun⟩
    change Transformed (db.storage.view key) [] (db.storage.view key)
    cases db.storage.view key with
    | none => exact ⟨rfl, rfl⟩
    | some row => exact ⟨row.values, rfl, rfl⟩
  exact (updates_guarded.run initially (meets_always _ _ _)).1

end Runs

/-- Two clients read the same row before either stores it: the second is refused. -/
example :
    ((@run _ _ _ _ _ (@updateStep Runtime.reference)
      (updateClients (finalState (@executeSession Runtime.reference [createT, insertT [1]])
        .fresh).toDatabase (fun _ => .new)
        fun i => [.update "t" (setT (if i then 2 else 3)) none])
      [true, false, true, true, true, true, false, false, false, true, false]).history.filterMap
        fun entry => match entry.2 with
          | .scan _ _ => none
          | .attempt attempt => some (entry.1, attempt.result.toOption)) =
      [(true, some true), (false, none)] := by
  decide +kernel

end MoodengSQL
