import MoodengSQL.Concurrency.Updates
import MoodengSQL.Execution.Build
import MoodengSQL.Execution.Conflicts

/-!
# Indexes among concurrent statements

Clients that run `UPDATE`, `DELETE` and `CREATE INDEX`. A statement scans in one
step and works on each row in a later one, with the image it scanned: the keys
of that image are taken out of the indexes, also when the row has another key by
now. Indexes stay exact in the runs in which no step works with a stale key.
-/

namespace MoodengSQL

open Foundation Foundation.Effect Interleaving

section Statements

/-- What a statement does to the rows it selects. -/
inductive RowWork where
  | update (assignments : List Assignment)
  | delete

/-- What a client asks for. -/
inductive IndexCall where
  | write (work : RowWork) (table : String) (whereClause : Option Expr)
  | createIndex (table indexName : String) (columns : List String) (unique : Bool)

/-- An `UPDATE` or `DELETE` with the schema it looked up. -/
structure RowJob where
  work : RowWork
  table : String
  schema : TableSchema
  whereClause : Option Expr

/-- Where a statement stands between its steps. An index that has been built is
still to be registered. -/
inductive IndexPlace where
  | scanned (job : RowJob) (rows : List (Nat × Row))
  | looping (job : RowJob) (txnId : Nat) (rows : List (Nat × Row)) (count : Nat)
  | built (table : String) (schema : TableSchema) (definition : IndexMeta) (index : BTreeIndex)
      (rows : List (Nat × Row))

/-- A failure ends the statement. -/
def reportFailure {α : Type} : Except Failure α → List (Except Failure Unit)
  | .ok _ => []
  | .error e => [.error e]

/-- The statement ends here. -/
def reportEnd {α : Type} : Except Failure α → List (Except Failure Unit)
  | .ok _ => [.ok ()]
  | .error e => [.error e]

variable [Runtime]

/-- The row-locked step of a statement on a row it selects. -/
def RowJob.workOn (job : RowJob) (txnId rowId : Nat) (row : Row) : ExecM Unit :=
  match job.work with
  | .update assignments => rewriteRow job.table job.schema assignments none txnId rowId row
  | .delete => removeRow job.table job.schema txnId rowId row

omit [Runtime] in
/-- The end of `Executor::create_index`, on the indexes and the catalog as they
are then. -/
def registerIndex (table : String) (definition : IndexMeta) (index : BTreeIndex) :
    ExecM Unit := do
  let s ← get
  let indexes ← ExecM.lift (s.indexes.createIndex table index)
  modify fun s => { s with indexes }
  let catalog ← ExecM.lift (s.catalog.addIndex table definition)
  modify fun s => { s with catalog }

/-- The first step of a statement. -/
def IndexCall.start (db : Database) : IndexCall → Except Failure IndexPlace
  | .write work table whereClause => do
      let schema ← db.catalog.getTable table
      .ok (.scanned { work, table, schema, whereClause } (db.storage.scan table))
  | .createIndex table indexName columns unique => do
      let schema ← db.catalog.getTable table
      match columns.find? fun column => (Catalog.columnIndex schema column).isNone with
      | some column => .error (.error (.columnNotFound column))
      | none => do
          let rows := db.storage.scan table
          let index ← buildIndex schema.colNames (.new indexName columns unique) rows
          .ok (.built table schema { name := indexName, columns, unique } index rows)

/-- A turn of a client. -/
def indexStep (db : Database) (client : Client IndexPlace IndexCall) :
    Turn Database (Client IndexPlace IndexCall) (Except Failure Unit) :=
  match client.phase with
  | none => match client.program with
    | [] => .wait db client
    | call :: rest =>
        { client with program := rest }.perform db (ExecM.lift (call.start db)) some reportFailure
  | some (.scanned job rows) =>
      client.perform db beginWriteTxn (fun txnId => some (.looping job txnId rows 0))
        reportFailure
  | some (.looping _ _ [] _) =>
      client.perform db finishAutoCommitIfNeeded (fun _ => none) reportEnd
  | some (.looping job txnId ((rowId, row) :: rest) count) =>
      client.perform db
        (do
          if ← ExecM.lift (selects job.whereClause row job.schema.colNames) then
            job.workOn txnId rowId row
            return count + 1
          else return count)
        (fun count => some (.looping job txnId rest count)) reportFailure
  | some (.built table _ definition index _) =>
      client.perform db (registerIndex table definition index) (fun _ => none) reportEnd

end Statements

section Condition

/-- An image has, in every index of its table, the key of other values. -/
def SameKeys (manager : IndexManager) (table : String) (columnNames : List String)
    (image current : List Value) : Prop :=
  ∀ name index, manager.index? table name = some index →
    index.keyOf columnNames current = index.keyOf columnNames image

/-- It has in no index of its table the key of other values. -/
def NoSameKey (manager : IndexManager) (table : String) (columnNames : List String)
    (image current : List Value) : Prop :=
  ∀ name index, manager.index? table name = some index →
    index.keyOf columnNames current ≠ index.keyOf columnNames image

/-- The condition on a turn. An `UPDATE` step that finds its row gone works on a
table without indexes, and one that finds another version scanned none of the
row's present keys; a `DELETE` step that finds its row scanned all of them; and a
built index has the keys the rows have when it is registered. -/
def WorksWithFreshKeys [Runtime] (db : Database) (client : Client IndexPlace IndexCall) : Prop :=
  match client.phase with
  | some (.looping job _ ((rowId, row) :: _) _) =>
      selects job.whereClause row job.schema.colNames = .ok true →
        match job.work, db.storage.view (job.table, rowId) with
        | .update _, none => ∀ name, db.indexes.index? job.table name = none
        | .update _, some current => current.version ≠ row.version →
            NoSameKey db.indexes job.table job.schema.colNames row.values current.values
        | .delete, none => True
        | .delete, some current =>
            SameKeys db.indexes job.table job.schema.colNames row.values current.values
  | some (.built table schema _ index rows) =>
      ∀ rowId, (db.storage.contents (table, rowId)).map (index.keyOf schema.colNames) =
        (loadRows rows (fun _ => none) rowId).map (index.keyOf schema.colNames)
  | _ => True

/-- The statement returned `Ok` or a version conflict. -/
def Returned.Accepted : Except Failure Unit → Prop
  | .ok _ => True
  | .error e => e.isConflict = true

instance : DecidablePred Returned.Accepted
  | .ok _ => isTrue trivial
  | .error e => inferInstanceAs (Decidable (e.isConflict = true))

/-- Whether the row a statement works on is still the one it scanned. -/
def StillAsScanned (db : Database) (client : Client IndexPlace IndexCall) : Bool :=
  match client.phase with
  | some (.looping job _ ((rowId, row) :: _) _) => db.storage.view (job.table, rowId) = some row
  | some (.built _ _ _ _ _) => false
  | _ => true

/-- Work on a row as it was scanned is work with fresh keys. -/
theorem worksWithFreshKeys_of_still [Runtime] {db : Database}
    {client : Client IndexPlace IndexCall} (still : StillAsScanned db client = true) :
    WorksWithFreshKeys db client := by
  unfold WorksWithFreshKeys
  unfold StillAsScanned at still
  split
  · rename_i job txnId rowId row rest count running
    rw [running] at still
    intro _
    rw [of_decide_eq_true still]
    cases job.work with
    | update assignments => exact fun differs => absurd rfl differs
    | delete => exact fun _ _ _ => rfl
  · rename_i running
    rw [running] at still
    cases still
  · trivial

end Condition

section Evolution

/-- The row has been read; it is gone, or stored in that version or a later one. -/
def Aged (storage : StorageEngine) (key : RowKey) (row : Row) : Prop :=
  storage.view key = none ∨ Behind storage key row

/-- Rows go, or get later versions; none appears. -/
def Ages (storage storage' : StorageEngine) : Prop :=
  ∀ key, (storage.view key = none → storage'.view key = none) ∧
    ∀ row, storage.view key = some row → Aged storage' key row

/-- The table is in the catalog with the columns of the schema. -/
def KnownAs (catalog : Catalog) (table : String) (schema : TableSchema) : Prop :=
  ∃ known, catalog[table]? = some known ∧ known.colNames = schema.colNames

/-- What a step of a statement can do to the tables and the catalog. -/
structure Evolves (s s' : Executor) : Prop where
  known : ∀ table schema, KnownAs s.catalog table schema → KnownAs s'.catalog table schema
  ages : Ages s.storage s'.storage

theorem Aged.ages {storage storage' : StorageEngine} {key : RowKey} {row : Row}
    (aged : Aged storage key row) (ages : Ages storage storage') : Aged storage' key row := by
  rcases aged with gone | ⟨current, stored, order⟩
  · exact .inl ((ages key).1 gone)
  · rcases (ages key).2 current stored with gone | ⟨later, stored', order'⟩
    · exact .inl gone
    · refine .inr ⟨later, stored', ?_⟩
      rcases order with rfl | order
      · exact order'
      · rcases order' with rfl | order'
        · exact .inr order
        · exact .inr (order.trans order')

theorem Ages.refl (storage : StorageEngine) : Ages storage storage :=
  fun _ => ⟨id, fun row stored => .inr ⟨row, stored, .inl rfl⟩⟩

instance : IsPreorder Executor Evolves where
  refl s := ⟨fun _ _ => id, .refl s.storage⟩
  trans _ _ _ first second := {
    known := fun table schema known => second.known table schema (first.known table schema known)
    ages := fun key => ⟨fun gone => (second.ages key).1 ((first.ages key).1 gone),
      fun row stored => ((first.ages key).2 row stored).ages second.ages⟩ }

theorem evolves_of_tables {s s' : Executor} (catalog : s'.catalog = s.catalog)
    (view : s'.storage.view = s.storage.view) : Evolves s s' := by
  refine ⟨fun _ _ => catalog ▸ id, fun key => ?_⟩
  unfold Aged Behind
  rw [view]
  exact Ages.refl s.storage key

/-- One row is replaced by a later version, or removed. -/
theorem ages_of_changed {storage storage' : StorageEngine} {key : RowKey} {row : Option Row}
    (view : storage'.view = Function.update storage.view key row)
    (later : ∀ new, row = some new → ∃ old, storage.view key = some old ∧
      old.version < new.version) : Ages storage storage' := by
  intro other
  by_cases same : other = key
  · subst same
    have now : storage'.view other = row := (congrFun view other).trans (Function.update_self ..)
    cases row with
    | none => exact ⟨fun _ => now, fun _ _ => .inl now⟩
    | some new =>
        obtain ⟨old, stored, order⟩ := later new rfl
        refine ⟨fun gone => ?_, fun row found => ?_⟩
        · rw [stored] at gone
          cases gone
        · obtain rfl : old = row := Option.some.inj (stored.symm.trans found)
          exact .inr ⟨new, now, .inr order⟩
  · have kept : storage'.view other = storage.view other :=
      (congrFun view other).trans (Function.update_of_ne same _ _)
    exact ⟨fun gone => kept.trans gone, fun row stored =>
      .inr ⟨row, kept.trans stored, .inl rfl⟩⟩

variable [Runtime]

theorem evolves_workOn (job : RowJob) (txnId rowId : Nat) (row : Row) :
    Moves Evolves (job.workOn txnId rowId row) := by
  unfold RowJob.workOn
  cases job.work with
  | update assignments =>
      refine Moves.rewriteRow (fun _ _ _ => evolves_of_tables rfl rfl)
        (fun _ _ => evolves_of_tables rfl rfl) ?_ _ _ _ _ _ _
      intro s table rowId row version changed storage ran
      rcases StorageEngine.update_outcome ran with ⟨-, -, rfl⟩ |
        ⟨-, existing, tables, found, expected, rfl, -, view⟩
      · exact evolves_of_tables rfl rfl
      · refine ⟨fun _ _ => id, ages_of_changed ((StorageEngine.view_log _ _ _).trans view) ?_⟩
        rintro new ⟨⟩
        exact ⟨existing, found, by simp [expected]⟩
  | delete =>
      refine Moves.removeRow (fun _ _ _ => evolves_of_tables rfl rfl)
        (fun _ _ => evolves_of_tables rfl rfl) ?_ _ _ _ _
      intro s table rowId deleted storage ran
      obtain ⟨tables, -, view, rfl, -⟩ := StorageEngine.delete_outcome ran
      cases deleted with
      | true => exact ⟨fun _ _ => id, ages_of_changed ((StorageEngine.view_log _ _ _).trans view) nofun⟩
      | false => exact ⟨fun _ _ => id, ages_of_changed view nofun⟩

omit [Runtime] in
/-- Registration fails at the index, fails at the catalog, or goes through. -/
theorem registerIndex_cases (table : String) (definition : IndexMeta) (index : BTreeIndex)
    (s : Executor) :
    (∃ e, registerIndex table definition index s = .error e s) ∨
      ∃ indexes, s.indexes.createIndex table index = .ok indexes ∧
        ((∃ e, registerIndex table definition index s = .error e { s with indexes }) ∨
          ∃ catalog, s.catalog.addIndex table definition = .ok catalog ∧
            registerIndex table definition index s = .ok () { s with indexes, catalog }) := by
  cases created : s.indexes.createIndex table index with
  | error e =>
      refine .inl ⟨e, bind_eq_error.mpr (.inr ⟨s, s, get_eq_ok.mpr ⟨rfl, rfl⟩, ?_⟩)⟩
      exact bind_eq_error.mpr (.inl (ExecM.lift_eq_error.mpr ⟨created, rfl⟩))
  | ok indexes =>
      refine .inr ⟨indexes, rfl, ?_⟩
      cases added : s.catalog.addIndex table definition with
      | error e =>
          refine .inl ⟨e, bind_eq_error.mpr (.inr ⟨s, s, get_eq_ok.mpr ⟨rfl, rfl⟩, ?_⟩)⟩
          refine bind_eq_error.mpr (.inr ⟨_, _, ExecM.lift_eq_ok.mpr ⟨created, rfl⟩, ?_⟩)
          refine bind_eq_error.mpr (.inr ⟨⟨⟩, _, modify_eq_ok.mpr rfl, ?_⟩)
          exact bind_eq_error.mpr (.inl (ExecM.lift_eq_error.mpr ⟨added, rfl⟩))
      | ok catalog =>
          refine .inr ⟨catalog, rfl, bind_eq_ok.mpr ⟨s, s, get_eq_ok.mpr ⟨rfl, rfl⟩, ?_⟩⟩
          refine bind_eq_ok.mpr ⟨_, _, ExecM.lift_eq_ok.mpr ⟨created, rfl⟩, ?_⟩
          refine bind_eq_ok.mpr ⟨⟨⟩, _, modify_eq_ok.mpr rfl, ?_⟩
          exact bind_eq_ok.mpr ⟨_, _, ExecM.lift_eq_ok.mpr ⟨added, rfl⟩, modify_eq_ok.mpr rfl⟩

omit [Runtime] in
/-- Adding an index to the catalog leaves the columns of every table. -/
theorem knownAs_addIndex {catalog before : Catalog} {table other : String}
    {definition : IndexMeta} {schema : TableSchema}
    (added : before.addIndex table definition = .ok catalog)
    (known : KnownAs before other schema) : KnownAs catalog other schema := by
  obtain ⟨found, stored, columns⟩ := known
  obtain ⟨schema', here, -, rfl⟩ := addIndex_eq_ok added
  by_cases same : other = table
  · subst same
    cases here.symm.trans stored
    exact ⟨_, (getElem?_insertTable _ _ _ _).trans (if_pos rfl), columns⟩
  · exact ⟨found, (getElem?_insertTable _ _ _ _).trans ((if_neg same).trans stored), columns⟩

omit [Runtime] in
theorem evolves_registerIndex (table : String) (definition : IndexMeta) (index : BTreeIndex) :
    Moves Evolves (registerIndex table definition index) := by
  intro s
  rcases registerIndex_cases table definition index s with ⟨e, ran⟩ |
    ⟨indexes, -, ⟨e, ran⟩ | ⟨catalog, added, ran⟩⟩
  · rw [finalState_of_error ran]
    exact refl_of Evolves s
  · rw [finalState_of_error ran]
    exact evolves_of_tables rfl rfl
  · rw [finalState_of_ok ran]
    exact ⟨fun _ _ => knownAs_addIndex added, .refl s.storage⟩

end Evolution

section Agreement

/-- The indexes of every table are exact for its rows. -/
def Database.Exact (db : Database) : Prop := Agree db.catalog db.indexes db.storage.contents

variable {db : Database} {table : String} {schema : TableSchema}

/-- A new index that is exact for the rows of its table. -/
theorem Agree.createIndex {indexes : IndexManager} {index : BTreeIndex}
    (agree : Agree db.catalog db.indexes db.storage.contents)
    (known : KnownAs db.catalog table schema)
    (exact : IndexExact index schema.colNames (db.storage.contents.table table))
    (created : db.indexes.createIndex table index = .ok indexes) :
    Agree db.catalog indexes db.storage.contents := by
  obtain ⟨found, stored, columns⟩ := known
  intro other otherSchema name otherIndex otherKnown placed
  rw [createIndex_eq_ok created] at placed
  split at placed
  · rename_i here
    obtain ⟨rfl, -⟩ := here
    cases stored.symm.trans otherKnown
    cases placed
    rw [columns]
    exact exact
  · exact agree otherKnown placed

theorem Agree.addIndex {catalog : Catalog} {indexes : IndexManager} {definition : IndexMeta}
    {contents : Contents} (agree : Agree db.catalog indexes contents)
    (added : db.catalog.addIndex table definition = .ok catalog) :
    Agree catalog indexes contents := by
  obtain ⟨schema', here, -, rfl⟩ := addIndex_eq_ok added
  intro other otherSchema name index known placed
  rw [getElem?_insertTable] at known
  split at known
  · cases known
    subst_vars
    have kept := agree here placed
    exact kept
  · exact agree known placed

/-- Putting keys of a row into the indexes of a table that has none. -/
theorem Agree.insertRow_noIndex [Runtime] {catalog : Catalog} {manager manager' : IndexManager}
    {contents : Contents} {values : List Value} {columnNames : List String} {rowId : Nat}
    (agree : Agree catalog manager contents) (none : ∀ name, manager.index? table name = none)
    (inserted : manager.insertRow table values columnNames rowId = (.ok (), manager')) :
    Agree catalog manager' contents := by
  intro other otherSchema name index known placed
  have step := IndexManager.insertRow_eq_ok inserted other name
  split at step
  · subst_vars
    rw [none name] at step
    cases step.symm.trans placed
  · exact agree known (step.symm.trans placed)

variable [Runtime] {s s' : Executor} {job : RowJob} {txnId rowId : Nat} {row : Row}

/-- The row step of an `UPDATE` that ends well. -/
theorem exact_rewriteRow {assignments : List Assignment} {u : Unit}
    (known : KnownAs s.catalog table schema) (aged : Aged s.storage (table, rowId) row)
    (gone : s.storage.view (table, rowId) = none → ∀ name, s.indexes.index? table name = none)
    (exact : s.toDatabase.Exact)
    (ran : rewriteRow table schema assignments none txnId rowId row s = .ok u s') :
    s'.toDatabase.Exact := by
  obtain ⟨found, stored, columns⟩ := known
  obtain ⟨catalog, values, indexed, ⟨missing, same⟩ | ⟨existing, present, version, view⟩⟩ :=
    rewriteRow_outcome ran
  · have noIndex := gone missing
    have removed : Agree s.catalog
        (s.indexes.removeRow table row.values schema.colNames rowId) s.storage.contents := by
      rw [← columns]
      exact exact.removeRow_other stored fun name index placed => by
        rw [noIndex name] at placed
        cases placed
    unfold Database.Exact
    rw [catalog, same]
    refine removed.insertRow_noIndex (fun name => ?_) indexed
    rw [IndexManager.index?_removeRow, if_pos rfl, noIndex name]
    rfl
  · obtain rfl : existing = row := by
      rcases aged with missing | ⟨current, present', order⟩
      · rw [present] at missing
        cases missing
      · obtain rfl := Option.some.inj (present.symm.trans present')
        exact order.resolve_right (version ▸ Nat.lt_irrefl _)
    have current : s.storage.contents (table, rowId) = some existing.values := by
      simp [StorageEngine.contents, present]
    unfold Database.Exact
    rw [catalog, StorageEngine.contents_eq_update view]
    refine exact.reindexed stored current ?_
    rw [columns]
    exact indexed

/-- The row step of an `UPDATE` that is refused. -/
theorem exact_rewriteRow_conflict {assignments : List Assignment} {e : Failure}
    (known : KnownAs s.catalog table schema)
    (other : ∀ current, s.storage.view (table, rowId) = some current →
      current.version ≠ row.version →
        NoSameKey s.indexes table schema.colNames row.values current.values)
    (exact : s.toDatabase.Exact)
    (ran : rewriteRow table schema assignments none txnId rowId row s = .error e s')
    (conflict : e.isConflict = true) : s'.toDatabase.Exact := by
  obtain ⟨found, stored, columns⟩ := known
  obtain ⟨⟨existing, present, differs⟩, rfl⟩ := rewriteRow_conflict ran conflict
  have noSameKey := other existing present differs
  unfold Database.Exact
  dsimp only
  rw [← columns] at noSameKey ⊢
  refine exact.removeRow_other stored fun name index placed current here => ?_
  have same : current = existing.values := by
    simpa [StorageEngine.contents, present] using here.symm
  rw [same]
  exact noSameKey name index placed

/-- The row step of a `DELETE`. -/
theorem exact_removeRow {u : Unit} (known : KnownAs s.catalog table schema)
    (same : ∀ current, s.storage.view (table, rowId) = some current →
      SameKeys s.indexes table schema.colNames row.values current.values)
    (exact : s.toDatabase.Exact)
    (ran : removeRow table schema txnId rowId row s = .ok u s') : s'.toDatabase.Exact := by
  obtain ⟨found, stored, columns⟩ := known
  simp only [removeRow, recordUndo, ExecM.removeIndexRow, bind_eq_ok, ExecM.liftStorage_eq_ok,
    modify_eq_ok, pure_eq_ok] at ran
  obtain ⟨_, _, rfl, _, _, rfl, deleted, _, ⟨storage, ran, rfl⟩, -, rfl⟩ := ran
  obtain ⟨tables, -, view, logged, -⟩ := StorageEngine.delete_outcome ran
  have changed : storage.view = Function.update s.storage.view (table, rowId) none := by
    rw [logged]
    cases deleted with
    | true => exact (StorageEngine.view_log _ _ _).trans view
    | false => exact view
  unfold Database.Exact
  dsimp only
  rw [StorageEngine.contents_eq_update changed, Option.map_none]
  cases present : s.storage.view (table, rowId) with
  | none =>
      have absent : s.storage.contents (table, rowId) = none := by
        simp [StorageEngine.contents, present]
      rw [Function.update_eq_self_iff.mpr absent.symm, ← columns]
      refine exact.removeRow_other stored fun name index placed current here => ?_
      rw [absent] at here
      cases here
  | some current =>
      have values : s.storage.contents (table, rowId) = some current.values := by
        simp [StorageEngine.contents, present]
      have sameKeys := same current present
      rw [← columns] at sameKeys ⊢
      exact exact.removeRow_sameKeys stored values sameKeys

end Agreement

section Runs

/-- A statement knows the columns of its table; the rows it has still to work on
are not ahead of storage, and an index it has built is exact for what it
scanned. -/
def IndexPlace.Prepared (db : Database) : Option IndexPlace → Prop
  | none => True
  | some (.scanned job rows) => KnownAs db.catalog job.table job.schema ∧
      ∀ entry ∈ rows, Aged db.storage (job.table, entry.1) entry.2
  | some (.looping job _ rows _) => KnownAs db.catalog job.table job.schema ∧
      ∀ entry ∈ rows, Aged db.storage (job.table, entry.1) entry.2
  | some (.built table schema _ index rows) => KnownAs db.catalog table schema ∧
      IndexExact index schema.colNames (loadRows rows fun _ => none)

theorem IndexPlace.Prepared.evolves {s s' : Executor} {place : Option IndexPlace}
    (prepared : IndexPlace.Prepared s.toDatabase place) (evolves : Evolves s s') :
    IndexPlace.Prepared s'.toDatabase place := by
  cases place with
  | none => trivial
  | some place =>
      cases place with
      | scanned job rows =>
          exact ⟨evolves.known _ _ prepared.1, fun entry member =>
            (prepared.2 entry member).ages evolves.ages⟩
      | looping job txnId rows count =>
          exact ⟨evolves.known _ _ prepared.1, fun entry member =>
            (prepared.2 entry member).ages evolves.ages⟩
      | built table schema definition index rows =>
          exact ⟨evolves.known _ _ prepared.1, prepared.2⟩

/-- The first step of a statement prepares it. -/
theorem prepared_start {db : Database} {call : IndexCall} {place : IndexPlace}
    (started : call.start db = .ok place) : IndexPlace.Prepared db (some place) := by
  cases call with
  | write work table whereClause =>
      obtain ⟨schema, known, started⟩ := except_bind_eq_ok.mp started
      cases started
      refine ⟨⟨schema, getTable_eq_ok.mp known, rfl⟩, fun entry member => .inr ?_⟩
      exact ⟨entry.2, StorageEngine.mem_scan.mp member, .inl rfl⟩
  | createIndex table indexName columns unique =>
      obtain ⟨schema, known, started⟩ := except_bind_eq_ok.mp started
      dsimp only at started
      split at started
      · cases started
      · obtain ⟨index, build, started⟩ := except_bind_eq_ok.mp started
        cases started
        refine ⟨⟨schema, getTable_eq_ok.mp known, rfl⟩, ?_⟩
        exact (buildIndex_exact (.new indexName columns unique schema.colNames)
          (scan_nodup db.storage table) (fun _ _ => rfl) build).1

variable [Runtime]

omit [Runtime] in
/-- A turn that runs a computation evolves the database as the computation does. -/
theorem evolves_perform {α : Type} {db : Database} {client : Client IndexPlace IndexCall}
    (program : List IndexCall) {m : ExecM α} {next : α → Option IndexPlace}
    {report : Except Failure α → List (Except Failure Unit)} (moves : Moves Evolves m) :
    let turn := Client.perform { client with program } db m next report
    Evolves (client.executor db) (turn.thread.executor turn.shared) := by
  apply Client.perform_cases fun turn =>
    Evolves (client.executor db) (turn.thread.executor turn.shared)
  · exact fun a s ran => moves.of_ok ran
  · exact fun e s ran => moves.of_error ran

/-- Every turn evolves the database. -/
theorem indexStep_evolves (db : Database) (client : Client IndexPlace IndexCall) :
    let turn := indexStep db client
    Evolves (client.executor db) (turn.thread.executor turn.shared) := by
  have logs : ∀ (s : Executor) (session : Session) (activeWriteTxns : Nat) (wal : WriteAheadLog),
      Evolves s { s with session, activeWriteTxns, storage := { s.storage with wal } } :=
    fun _ _ _ _ => evolves_of_tables rfl rfl
  unfold indexStep
  cases running : client.phase with
  | none =>
      dsimp only
      split
      · exact refl_of Evolves _
      · exact evolves_perform _ (Moves.lift _)
  | some place =>
      cases place with
      | scanned job rows => exact evolves_perform client.program (Moves.beginWriteTxn logs)
      | looping job txnId rows count =>
          cases rows with
          | nil => exact evolves_perform client.program (Moves.finishAutoCommitIfNeeded logs)
          | cons entry rest =>
              refine evolves_perform client.program (.seq (Moves.lift _) fun selected => ?_)
              split
              · exact .seq (evolves_workOn _ _ _ _) fun _ => .ret _
              · exact .ret _
      | built table schema definition index rows =>
          exact evolves_perform client.program (evolves_registerIndex _ _ _)

/-- Every turn leaves the statement prepared. -/
theorem indexStep_prepared {db : Database} {client : Client IndexPlace IndexCall}
    (prepared : IndexPlace.Prepared db client.phase) :
    IndexPlace.Prepared (indexStep db client).shared (indexStep db client).thread.phase := by
  have evolves := indexStep_evolves db client
  revert evolves
  unfold indexStep
  cases running : client.phase with
  | none =>
      dsimp only
      split
      · intro _
        dsimp only [Turn.wait]
        rw [running]
        trivial
      · rename_i call rest program
        apply Client.perform_cases fun turn => Evolves (client.executor db)
          (turn.thread.executor turn.shared) → IndexPlace.Prepared turn.shared turn.thread.phase
        · intro place s ran _
          obtain ⟨started, rfl⟩ := ExecM.lift_eq_ok.mp ran
          exact prepared_start started
        · exact fun _ _ _ _ => trivial
  | some place =>
      rw [running] at prepared
      cases place with
      | scanned job rows =>
          apply Client.perform_cases fun turn => Evolves (client.executor db)
            (turn.thread.executor turn.shared) → IndexPlace.Prepared turn.shared turn.thread.phase
          · intro txnId s ran evolves
            obtain ⟨known, aged⟩ := prepared
            exact ⟨evolves.known _ _ known, fun entry member =>
              (aged entry member).ages evolves.ages⟩
          · exact fun _ _ _ _ => trivial
      | looping job txnId rows count =>
          cases rows with
          | nil =>
              apply Client.perform_cases fun turn => Evolves (client.executor db)
                (turn.thread.executor turn.shared) →
                  IndexPlace.Prepared turn.shared turn.thread.phase
              all_goals exact fun _ _ _ _ => trivial
          | cons entry rest =>
              apply Client.perform_cases fun turn => Evolves (client.executor db)
                (turn.thread.executor turn.shared) →
                  IndexPlace.Prepared turn.shared turn.thread.phase
              · intro count s ran evolves
                obtain ⟨known, aged⟩ := prepared
                exact ⟨evolves.known _ _ known, fun entry member =>
                  (aged entry (List.mem_cons_of_mem _ member)).ages evolves.ages⟩
              · exact fun _ _ _ _ => trivial
      | built table schema definition index rows =>
          apply Client.perform_cases fun turn => Evolves (client.executor db)
            (turn.thread.executor turn.shared) → IndexPlace.Prepared turn.shared turn.thread.phase
          all_goals exact fun _ _ _ _ => trivial

/-- Exact indexes stay exact. -/
def KeepsExact (s s' : Executor) : Prop := s.toDatabase.Exact → s'.toDatabase.Exact

omit [Runtime] in
instance : IsPreorder Executor KeepsExact where
  refl _ := id
  trans _ _ _ first second := fun exact => second (first exact)

omit [Runtime] in
theorem exact_perform {α : Type} {db : Database} {client : Client IndexPlace IndexCall}
    (program : List IndexCall) {m : ExecM α} {next : α → Option IndexPlace}
    {report : Except Failure α → List (Except Failure Unit)} (exact : db.Exact)
    (keeps : Moves KeepsExact m) :
    (Client.perform { client with program } db m next report).shared.Exact := by
  apply Client.perform_cases fun turn => turn.shared.Exact
  · exact fun a s ran => keeps.of_ok ran exact
  · exact fun e s ran => keeps.of_error ran exact

/-- The work on a row that is selected. -/
theorem exact_workOn {s s' : Executor} {job : RowJob} {txnId rowId : Nat} {row : Row} {u : Unit}
    (known : KnownAs s.catalog job.table job.schema)
    (aged : Aged s.storage (job.table, rowId) row)
    (fresh : match job.work, s.storage.view (job.table, rowId) with
      | .update _, none => ∀ name, s.indexes.index? job.table name = none
      | .update _, some current => current.version ≠ row.version →
          NoSameKey s.indexes job.table job.schema.colNames row.values current.values
      | .delete, none => True
      | .delete, some current =>
          SameKeys s.indexes job.table job.schema.colNames row.values current.values)
    (exact : s.toDatabase.Exact) (ran : job.workOn txnId rowId row s = .ok u s') :
    s'.toDatabase.Exact := by
  unfold RowJob.workOn at ran
  cases work : job.work with
  | update assignments =>
      rw [work] at ran fresh
      refine exact_rewriteRow known aged (fun gone => ?_) exact ran
      rw [gone] at fresh
      exact fresh
  | delete =>
      rw [work] at ran fresh
      refine exact_removeRow known (fun current present => ?_) exact ran
      rw [present] at fresh
      exact fresh

/-- The work on a row that is refused with a version conflict. -/
theorem exact_workOn_conflict {s s' : Executor} {job : RowJob} {txnId rowId : Nat} {row : Row}
    {e : Failure} (known : KnownAs s.catalog job.table job.schema)
    (fresh : match job.work, s.storage.view (job.table, rowId) with
      | .update _, none => ∀ name, s.indexes.index? job.table name = none
      | .update _, some current => current.version ≠ row.version →
          NoSameKey s.indexes job.table job.schema.colNames row.values current.values
      | .delete, none => True
      | .delete, some current =>
          SameKeys s.indexes job.table job.schema.colNames row.values current.values)
    (exact : s.toDatabase.Exact) (ran : job.workOn txnId rowId row s = .error e s')
    (conflict : e.isConflict = true) : s'.toDatabase.Exact := by
  unfold RowJob.workOn at ran
  cases work : job.work with
  | update assignments =>
      rw [work] at ran fresh
      refine exact_rewriteRow_conflict known (fun current present => ?_) exact ran conflict
      rw [present] at fresh
      exact fresh
  | delete =>
      rw [work] at ran
      have refused := removeRow_unconflicted ran
      rw [refused] at conflict
      cases conflict

/-- The row step of a statement with fresh keys. -/
theorem exact_looping {db : Database} {client : Client IndexPlace IndexCall} {job : RowJob}
    {txnId rowId count : Nat} {row : Row} {rest : List (Nat × Row)}
    (running : client.phase = some (.looping job txnId ((rowId, row) :: rest) count))
    (fresh : WorksWithFreshKeys db client) (prepared : IndexPlace.Prepared db client.phase)
    (exact : db.Exact)
    (accepted : ∀ returned ∈ (indexStep db client).events, Returned.Accepted returned) :
    (indexStep db client).shared.Exact := by
  unfold WorksWithFreshKeys at fresh
  rw [running] at fresh prepared
  obtain ⟨known, aged⟩ := prepared
  revert accepted
  unfold indexStep
  rw [running]
  apply Client.perform_cases fun turn =>
    (∀ returned ∈ turn.events, Returned.Accepted returned) → turn.shared.Exact
  · intro result s ran _
    obtain ⟨selected, mid, lifted, ran⟩ := bind_eq_ok.mp ran
    obtain ⟨selects, rfl⟩ := ExecM.lift_eq_ok.mp lifted
    cases selected with
    | false =>
        obtain ⟨-, rfl⟩ := pure_eq_ok.mp ran
        exact exact
    | true =>
        obtain ⟨_, mid, worked, ran⟩ := bind_eq_ok.mp ran
        obtain ⟨-, rfl⟩ := pure_eq_ok.mp ran
        exact exact_workOn known (aged (rowId, row) List.mem_cons_self) (fresh selects) exact
          worked
  · intro e s ran accepted
    have conflict : e.isConflict = true := accepted (.error e) List.mem_cons_self
    rcases bind_eq_error.mp ran with failed | ⟨selected, mid, lifted, ran⟩
    · obtain ⟨failed, -⟩ := ExecM.lift_eq_error.mp failed
      rw [unconflicted_selects _ _ _ _ failed] at conflict
      cases conflict
    · obtain ⟨selects, rfl⟩ := ExecM.lift_eq_ok.mp lifted
      cases selected with
      | false => cases pure_eq_error.mp ran
      | true =>
          rcases bind_eq_error.mp ran with failed | ⟨_, mid, -, ran⟩
          · exact exact_workOn_conflict known (fresh selects) exact failed conflict
          · cases pure_eq_error.mp ran

omit [Runtime] in
/-- The registration of an index whose keys are those of the rows. -/
theorem exact_registerIndex {s : Executor} {table : String} {schema : TableSchema}
    (definition : IndexMeta) {index : BTreeIndex} {rows : Nat → Option (List Value)}
    (known : KnownAs s.catalog table schema) (built : IndexExact index schema.colNames rows)
    (fresh : ∀ rowId, (s.storage.contents (table, rowId)).map (index.keyOf schema.colNames) =
      (rows rowId).map (index.keyOf schema.colNames))
    (exact : s.toDatabase.Exact) :
    (finalState (registerIndex table definition index) s).toDatabase.Exact := by
  have placed : ∀ indexes, s.indexes.createIndex table index = .ok indexes →
      Agree s.catalog indexes s.storage.contents := by
    intro indexes created
    exact Agree.createIndex exact known (built.congr_keys fresh) created
  rcases registerIndex_cases table definition index s with ⟨e, ran⟩ |
    ⟨indexes, created, ⟨e, ran⟩ | ⟨catalog, added, ran⟩⟩
  · rw [finalState_of_error ran]
    exact exact
  · rw [finalState_of_error ran]
    exact placed indexes created
  · rw [finalState_of_ok ran]
    exact (placed indexes created).addIndex added

/-- A turn with fresh keys keeps the indexes exact. -/
theorem indexStep_exact {db : Database} {client : Client IndexPlace IndexCall}
    (fresh : WorksWithFreshKeys db client) (prepared : IndexPlace.Prepared db client.phase)
    (exact : db.Exact)
    (accepted : ∀ returned ∈ (indexStep db client).events, Returned.Accepted returned) :
    (indexStep db client).shared.Exact := by
  have logs : ∀ (s : Executor) (session : Session) (activeWriteTxns : Nat) (wal : WriteAheadLog),
      KeepsExact s { s with session, activeWriteTxns, storage := { s.storage with wal } } :=
    fun _ _ _ _ => id
  cases running : client.phase with
  | none =>
      unfold indexStep
      rw [running]
      dsimp only
      split
      · exact exact
      · exact exact_perform _ exact (Moves.lift _)
  | some place =>
      cases place with
      | scanned job rows =>
          unfold indexStep
          rw [running]
          exact exact_perform client.program exact (Moves.beginWriteTxn logs)
      | looping job txnId rows count =>
          cases rows with
          | nil =>
              unfold indexStep
              rw [running]
              exact exact_perform client.program exact (Moves.finishAutoCommitIfNeeded logs)
          | cons entry rest => exact exact_looping running fresh prepared exact accepted
      | built table schema definition index rows =>
          unfold WorksWithFreshKeys at fresh
          rw [running] at fresh prepared
          unfold indexStep
          rw [running]
          have registered := exact_registerIndex (s := client.executor db) definition
            prepared.1 prepared.2 fresh exact
          apply Client.perform_cases fun turn => turn.shared.Exact
          · intro u s ran
            exact finalState_of_ok ran ▸ registered
          · intro e s ran
            exact finalState_of_error ran ▸ registered

/-- Statements that work with fresh keys keep the indexes exact as long as all of
them return `Ok` or a version conflict. -/
theorem indexes_guarded {ι : Type} :
    Guarded indexStep WorksWithFreshKeys
      (fun (history : List (ι × Except Failure Unit)) db =>
        (∀ entry ∈ history, Returned.Accepted entry.2) → db.Exact)
      (fun _ _ db client => IndexPlace.Prepared db client.phase) where
  shared history db i client fresh exact prepared accepted := by
    refine indexStep_exact fresh prepared (exact fun entry member => ?_) fun returned member => ?_
    · exact accepted entry (List.mem_append_left _ member)
    · exact accepted (i, returned) (List.mem_append_right _ (List.mem_map_of_mem member))
  own history db i client _ _ prepared := indexStep_prepared prepared
  others history db i client j other _ _ _ _ prepared :=
    IndexPlace.Prepared.evolves prepared (indexStep_evolves db client)

/-- Clients with the calls they will make, between statements. -/
def indexClients {ι : Type} (db : Database) (sessions : ι → Session)
    (programs : ι → List IndexCall) :
    Configuration ι Database (Client IndexPlace IndexCall) (Except Failure Unit) where
  shared := db
  threads i := { session := sessions i, phase := none, program := programs i }
  history := []

/-- **Indexes stay exact in runs whose steps work with fresh keys.** For any
number of clients that run `UPDATE`, `DELETE` and `CREATE INDEX`, from a database
whose indexes are exact and along every schedule whose steps all meet the
condition: as long as every statement that has returned gave `Ok` or a version
conflict, every index holds exactly the keys of the rows in storage. -/
theorem indexes_exact_under_concurrency {ι : Type} [DecidableEq ι] {db : Database}
    (exact : db.Exact) (sessions : ι → Session) (programs : ι → List IndexCall)
    {schedule : List ι}
    (fresh : Meets indexStep WorksWithFreshKeys (indexClients db sessions programs) schedule)
    (accepted : ∀ entry ∈ (run indexStep (indexClients db sessions programs) schedule).history,
      Returned.Accepted entry.2) :
    (run indexStep (indexClients db sessions programs) schedule).shared.Exact := by
  have initially : HoldsWith (fun (history : List (ι × Except Failure Unit)) (db : Database) =>
      (∀ entry ∈ history, Returned.Accepted entry.2) → db.Exact)
      (fun _ _ db client => IndexPlace.Prepared db client.phase)
      (indexClients db sessions programs) := ⟨fun _ => exact, fun _ => trivial⟩
  exact (indexes_guarded.run initially fresh).1 accepted

end Runs

/-- A table with a unique key and one row. -/
def oneKey [Runtime] : Executor :=
  (runStatements ddlOutside .fresh [createT, insertT [1]]).getD .fresh

theorem exact_oneRow [Runtime]
    (ran : (runStatements ddlOutside .fresh [createT, insertT [1]]).isSome = true) :
    oneKey.toDatabase.Exact := by
  obtain ⟨s, ran⟩ := Option.isSome_iff_exists.mp ran
  have same : oneKey = s := by rw [oneKey, ran, Option.getD_some]
  rw [same]
  exact (Run.of_runStatements ran).consistent.1.agree

/-- An index without entries is not exact for a table with a row. -/
theorem not_exact_of_lost_key {db : Database}
    (known : db.catalog["t"]?.isSome = true)
    (empty : (db.indexes.index? "t" "t_pkey").map (·.tree.isEmpty) = some true)
    (stored : (db.storage.contents ("t", 1)).isSome = true) : ¬db.Exact := by
  intro exact
  obtain ⟨values, stored⟩ := Option.isSome_iff_exists.mp stored
  obtain ⟨schema, known⟩ := Option.isSome_iff_exists.mp known
  obtain ⟨index, placed, empty⟩ := Option.map_eq_some_iff.mp empty
  have listed := ((exact known placed).mem_ids _ 1).mpr ⟨values, stored, rfl⟩
  rw [BTreeIndex.ids, Std.ExtTreeMap.isEmpty_iff.mp empty, Std.ExtTreeMap.getD_empty] at listed
  cases listed

/-- Two clients run `UPDATE t SET id = 1` on a row that has this value. -/
def conflictingUpdates [Runtime] (schedule : List Bool) :
    Configuration Bool Database (Client IndexPlace IndexCall) (Except Failure Unit) :=
  run indexStep (indexClients oneKey.toDatabase (fun _ => .new)
    fun _ => [.write (.update (setT 1)) "t" none]) schedule

/-- Both scan the row; the second to store it is refused, after it has taken the
key out of the index. -/
theorem conflict_drops_key :
    let finish := @conflictingUpdates Runtime.reference
      [true, false, true, true, true, false, false]
    (@oneKey Runtime.reference).toDatabase.Exact ∧
      (∀ i, (finish.threads i).phase.isNone = true ∧
        (finish.threads i).program.isEmpty = true) ∧
      (∀ entry ∈ finish.history, Returned.Accepted entry.2) ∧ ¬finish.shared.Exact := by
  refine ⟨@exact_oneRow Runtime.reference (by decide +kernel), by decide +kernel,
    by decide +kernel, not_exact_of_lost_key ?_ ?_ ?_⟩
  all_goals decide +kernel

/-- One client updates the row, then another deletes it. -/
theorem indexes_exact_under_concurrency_in_turn :
    (run (@indexStep Runtime.reference) (indexClients (@oneKey Runtime.reference).toDatabase
      (fun _ => .new) fun
        | true => [.write (.update (setT 2)) "t" none]
        | false => [.write .delete "t" none])
      [true, true, true, true, false, false, false, false]).shared.Exact := by
  apply @indexes_exact_under_concurrency Runtime.reference Bool _ _
    (@exact_oneRow Runtime.reference (by decide +kernel))
  · apply Meets.mono _ fun _ _ => @worksWithFreshKeys_of_still Runtime.reference _ _
    decide +kernel
  · decide +kernel

end MoodengSQL
