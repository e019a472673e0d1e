import MoodengSQL.Recovery.Backups
import MoodengSQL.Relational.Queries
import MoodengSQL.Relational.Rows

/-!
# Statements over relations

A state of the engine stands for relations: its scans give their rows, and the undo
records of its transaction lead back to the rows they have saved. Every statement of the
engine ends as the relations do.
-/

namespace MoodengSQL

open Foundation Foundation.Effect Relation Std

/-- The rows are those that the contents list, table by table. -/
def Tabulates (contents : Contents) (rows : String → List (List Value)) : Prop :=
  ∀ table, ∃ entries, Lists entries (contents.table table) ∧ rows table = entries.map Prod.snd

/-- The session is outside transactions, or in one that leads back to the saved rows. -/
def Recalls (s : Executor) : Option (String → List (List Value)) → Prop
  | none => s.session = .new
  | some rows => s.session.autoCommit = false ∧
      (∃ txnId, s.session.transaction.txnId = some txnId) ∧
      ∃ start, Tracks s start ∧ Tabulates start rows

/-- A consistent state with the catalog, the rows and the saved rows of the relations. -/
structure StandsFor (s : Executor) (rel : Relations) : Prop where
  consistent : Consistent s
  catalog : rel.catalog = s.catalog
  rows : Tabulates s.storage.contents rel.rows
  saved : Recalls s rel.saved

/-- A statement that returned this in this state has done that. -/
def Did (result : QueryResult) (s : Executor) (done : QueryResult × Relations) : Prop :=
  result = done.1 ∧ StandsFor s done.2

section Holding

variable {s s' : Executor} {contents contents' : Contents} {rows : String → List (List Value)}
  {rel : Relations}

theorem Tabulates.scan (holds : Tabulates s.storage.contents rows) (table : String) :
    rows table = (scanEntries (s.storage.scan table)).map Prod.snd := by
  obtain ⟨entries, lists, listed⟩ := holds table
  rw [listed, lists.unique (lists_scan s.storage table)]

theorem StandsFor.sameRows (stands : StandsFor s rel) : SameRows s.toDatabase rel where
  catalog := stands.catalog
  rows table := by
    rw [stands.rows.scan table, scanEntries, List.map_map]
    rfl

/-- One table has other rows. -/
theorem Tabulates.update (holds : Tabulates contents rows) {table : String}
    {entries : List (Nat × List Value)} (lists : Lists entries (contents'.table table))
    (others : ∀ other ≠ table, contents'.table other = contents.table other) :
    Tabulates contents' (Function.update rows table (entries.map Prod.snd)) := by
  intro other
  rw [Function.update_apply]
  by_cases here : other = table
  · subst here
    rw [if_pos rfl]
    exact ⟨entries, lists, rfl⟩
  · rw [if_neg here, others other here]
    exact holds other

theorem OthersKept.sameContents {start : Executor} {table other : String}
    (others : OthersKept table start s) (elsewhere : other ≠ table) :
    s.storage.contents.table other = start.storage.contents.table other := by
  funext id
  unfold Contents.table StorageEngine.contents
  rw [others.rows other elsewhere id]

theorem StandsFor.idle (stands : StandsFor s rel)
    (idle : s.session.transaction.active = false) : rel.saved = none ∧ s.session = .new := by
  have recalls := stands.saved
  cases saved : rel.saved with
  | none =>
      rw [saved] at recalls
      exact ⟨rfl, recalls⟩
  | some rows =>
      rw [saved] at recalls
      obtain ⟨explicit, ⟨txnId, running⟩, start, tracks, -⟩ := recalls
      cases tracks with
      | idle session =>
          rw [session] at running
          cases running
      | explicit session =>
          rw [session] at idle
          cases idle
      | automatic session =>
          rw [session] at explicit
          cases explicit

end Holding

section Transactions

variable [Runtime] {s s' : Executor} {rel : Relations}

omit [Runtime] in
/-- **`BEGIN`** is refused inside a transaction, and otherwise saves the rows. -/
theorem begin_endsAs (stands : StandsFor s rel) : EndsAs (begin s) rel.begin Did := by
  have recalls := stands.saved
  unfold Relations.begin
  cases saved : rel.saved with
  | none =>
      rw [saved] at recalls
      have idle : s.session.transaction.active = false := by
        rw [show s.session = .new from recalls]
        rfl
      refine .of_ok (begin_eq_ok.mpr ⟨idle, rfl, rfl⟩) rfl ⟨rfl, ?_⟩
      exact ⟨stands.consistent.opened false, stands.catalog, stands.rows, rfl, ⟨_, rfl⟩, _,
        .opened s false, stands.rows⟩
  | some rows =>
      apply EndsAs.of_not_ok
      intro a s' ran
      obtain ⟨idle, -⟩ := begin_eq_ok.mp ran
      rw [(stands.idle idle).1] at saved
      cases saved

omit [Runtime] in
theorem commit_accepts {txnId : Nat} (active : s.session.transaction.active = true)
    (running : s.session.transaction.txnId = some txnId) :
    commit s = .ok (.modified 0 "COMMIT") (s.committed txnId) := by
  simp only [commit, bind_eq_ok, get_eq_ok]
  refine ⟨s, s, ⟨rfl, rfl⟩, ?_⟩
  simp only [active, Bool.not_true, Bool.false_eq_true, if_false, bind_eq_ok, modify_eq_ok,
    pure_eq_ok, liftCommit_eq_ok]
  exact ⟨(), _, rfl, (), _, ⟨txnId, running, rfl⟩, (), _, rfl, trivial, rfl⟩

omit [Runtime] in
/-- A session that recalls rows is in a transaction of its own. -/
theorem Recalls.active {rows : String → List (List Value)} (recalls : Recalls s (some rows)) :
    s.session.transaction.active = true := by
  obtain ⟨explicit, ⟨txnId, running⟩, start, tracks, -⟩ := recalls
  cases tracks with
  | idle session =>
      rw [session] at running
      cases running
  | explicit session => rw [session]; rfl
  | automatic session => rw [session]; rfl

omit [Runtime] in
/-- **`COMMIT`** is refused outside transactions, and otherwise forgets the saved rows. -/
theorem commit_endsAs (stands : StandsFor s rel) : EndsAs (commit s) rel.commit Did := by
  have recalls := stands.saved
  unfold Relations.commit
  cases saved : rel.saved with
  | none =>
      rw [saved] at recalls
      apply EndsAs.of_not_ok
      intro a s' ran
      simp only [commit, bind_eq_ok, get_eq_ok] at ran
      obtain ⟨_, _, ⟨rfl, rfl⟩, ran⟩ := ran
      rw [show s.session = .new from recalls] at ran
      simp [Session.new, Transaction.idle, bind_eq_ok, throw_eq_ok] at ran
  | some rows =>
      rw [saved] at recalls
      obtain ⟨explicit, ⟨txnId, running⟩, -⟩ := id recalls
      refine .of_ok (commit_accepts recalls.active running) rfl ⟨rfl, ?_⟩
      exact ⟨stands.consistent.committed txnId, stands.catalog, stands.rows, rfl⟩

/-- **`ROLLBACK`** is refused outside transactions, and otherwise brings the saved rows
back. -/
theorem rollback_endsAs (stands : StandsFor s rel) : EndsAs (rollback s) rel.rollback Did := by
  have recalls := stands.saved
  unfold Relations.rollback
  cases saved : rel.saved with
  | none =>
      rw [saved] at recalls
      apply EndsAs.of_not_ok
      intro a s' ran
      obtain ⟨_, _, active, -⟩ := rollback_eq_ok.mp ran
      rw [show s.session = .new from recalls] at active
      cases active
  | some rows =>
      rw [saved] at recalls
      obtain ⟨explicit, ⟨txnId, running⟩, start, tracks, holds⟩ := id recalls
      obtain ⟨undone, ran, result⟩ := tracks.undo stands.consistent txnId explicit
      obtain ⟨consistent, idle, contents, -⟩ := stands.consistent.rollback tracks ran
      refine .of_ok (rollback_eq_ok.mpr ⟨txnId, undone, recalls.active, running, ran, rfl, rfl⟩)
        rfl ⟨rfl, consistent.congr rfl rfl rfl, ?_, ?_, idle⟩
      · obtain ⟨tables, indexes, rfl, -⟩ := result.state
        exact stands.catalog
      · change Tabulates undone.storage.contents rows
        rw [contents explicit]
        exact holds

end Transactions

section Writes

variable [Runtime] {s s' : Executor} {rel : Relations} {table : String} {schema : TableSchema}
  {txnId : Nat}

omit [Runtime] in
theorem beginWriteTxn_accepts (stands : StandsFor s rel) :
    ∃ txnId entered, beginWriteTxn s = .ok txnId entered := by
  cases ran : beginWriteTxn s with
  | ok txnId entered => exact ⟨txnId, entered, rfl⟩
  | error e s' =>
      obtain ⟨-, outside, active⟩ := beginWriteTxn_error ran
      have recalls := stands.saved
      cases saved : rel.saved with
      | none =>
          rw [saved] at recalls
          rw [show s.session = .new from recalls] at active
          cases active
      | some rows =>
          rw [saved] at recalls
          obtain ⟨-, ⟨txnId, running⟩, -⟩ := recalls
          rw [outside] at running
          cases running

omit [Runtime] in
/-- A statement starts on the table as it is. -/
theorem StandsFor.atTable (stands : StandsFor s rel) (known : s.catalog[table]? = some schema)
    (enters : Enters s txnId s') :
    AtTable s table schema (scanEntries (s.storage.scan table)) s' := by
  have consistent : Consistent s' := by
    cases enters with
    | explicit => exact stands.consistent
    | automatic => exact stands.consistent.opened true
  refine ⟨consistent, enters.frame.1 ▸ known, ?_, enters.othersKept table⟩
  have contents : s'.storage.contents = s.storage.contents := by
    unfold StorageEngine.contents StorageEngine.view
    rw [enters.frame.2.1]
  rw [contents]
  exact lists_scan s.storage table

omit [Runtime] in
theorem Leaves.contents (leaves : Leaves s s') : s'.storage.contents = s.storage.contents := by
  cases leaves <;> rfl

/-- What the session recalls, from the start of a write statement to its end. -/
theorem Recalls.written {saved : Option (String → List (List Value))} {entered changed : Executor}
    (recalls : Recalls s saved) (consistent : Consistent s) (enters : Enters s txnId entered)
    (steps : ReflTransGen (SomeRowStep txnId) entered changed) (leaves : Leaves changed s') :
    Consistent s' ∧ Recalls s' saved := by
  have running := enters.not_beginRefused.2
  have mode := autoCommit_rowSteps steps
  cases saved with
  | none =>
      have session : s.session = .new := recalls
      cases enters with
      | explicit inside =>
          rw [session] at inside
          cases inside
      | automatic =>
          obtain ⟨changes, -, -⟩ := (consistent.opened true).rowSteps steps (.opened s true) running
          cases leaves with
          | explicit inside =>
              rw [mode] at inside
              cases inside
          | automatic => exact ⟨changes.committed _, rfl⟩
  | some rows =>
      obtain ⟨explicit, ⟨txnId', inside⟩, start, tracks, holds⟩ := recalls
      cases enters with
      | automatic outside =>
          rw [outside] at inside
          cases inside
      | explicit =>
          obtain ⟨changes, tracks, still⟩ := consistent.rowSteps steps tracks running
          cases leaves with
          | explicit => exact ⟨changes, mode.trans explicit, ⟨txnId, still⟩, start, tracks, holds⟩
          | automatic automatic =>
              rw [mode, explicit] at automatic
              cases automatic

/-- **A write statement** ends as its row loop does. -/
theorem write_endsAs {loop : Nat → ExecM Nat} {result : Nat → QueryResult}
    {spec : Option (Nat × List (List Value))} (stands : StandsFor s rel)
    (known : s.catalog[table]? = some schema)
    (steps : ∀ {txnId n entered changed}, Enters s txnId entered →
      loop txnId entered = .ok n changed → ReflTransGen (SomeRowStep txnId) entered changed)
    (ends : ∀ {txnId entered}, Enters s txnId entered →
      AtTable s table schema (scanEntries (s.storage.scan table)) entered →
      EndsAs (loop txnId entered) spec (Stored s table schema)) :
    EndsAs ((do
        let txnId ← beginWriteTxn
        let count ← loop txnId
        finishAutoCommitIfNeeded
        return result count : ExecM QueryResult) s)
      (spec.map fun stored => (result stored.1, rel.withRows table stored.2)) Did := by
  obtain ⟨txnId, entered, begun⟩ := beginWriteTxn_accepts stands
  have enters := beginWriteTxn_ok begun
  refine EndsAs.step begun ((ends enters (stands.atTable known enters)).seqMap ?_)
  rintro n changed ⟨n', rows⟩ ran - ⟨rfl, entries, at_, rfl⟩
  have steps := steps enters ran
  have running : changed.session.transaction.txnId = some txnId := by
    have moved : ∀ {changed : Executor}, ReflTransGen (SomeRowStep txnId) entered changed →
        changed.session.transaction.txnId = some txnId := by
      intro changed steps
      induction steps with
      | refl => exact enters.not_beginRefused.2
      | tail _ step ih =>
          obtain ⟨key, change, step⟩ := step
          exact step.running ih
    exact moved steps
  cases finished : finishAutoCommitIfNeeded changed with
  | error e s' => exact absurd finished (finishAutoCommitIfNeeded_accepts running)
  | ok u s' =>
      have leaves := finishAutoCommitIfNeeded_ok finished
      obtain ⟨consistent, recalls⟩ := stands.saved.written stands.consistent enters steps leaves
      refine ⟨result n, s', bind_eq_ok.mpr ⟨u, s', finished, rfl⟩, rfl, consistent, ?_, ?_,
        recalls⟩
      · have catalog : s'.catalog = changed.catalog := by
          cases leaves <;> rfl
        rw [catalog, at_.others.catalog]
        exact stands.catalog
      · rw [leaves.contents]
        exact stands.rows.update at_.lists fun other => at_.others.sameContents

/-- **`UPDATE`.** -/
theorem update_endsAs (stands : StandsFor s rel) (assignments : List Assignment)
    (whereClause : Option Expr) :
    EndsAs (update table assignments whereClause s) (rel.update table assignments whereClause)
      Did := by
  refine EndsAs.read ?_
  rw [Relations.update, stands.catalog, ← getTable_toOption]
  refine EndsAs.seq (endsAs_lift (s.catalog.getTable table)) ?_
  rintro schema s' _ found - ⟨rfl, rfl⟩
  have known := getTable_eq_ok.mp (ExecM.lift_eq_ok.mp found).1
  refine write_endsAs stands known ?_ ?_
  · intro txnId n entered changed enters ran
    exact updateRows_ok (enters.frame.1 ▸ known)
      (enters.stillStored (stillStored_scan s' table)) ran
  · intro txnId entered enters at_
    rw [stands.rows.scan table]
    have atStart : AtTable s' table schema ([] ++ scanEntries (s'.storage.scan table)) entered := at_
    exact updateRows_endsAs atStart (enters.stillStored (stillStored_scan s' table))

/-- **`DELETE`.** -/
theorem delete_endsAs (stands : StandsFor s rel) (whereClause : Option Expr) :
    EndsAs (delete table whereClause s) (rel.delete table whereClause) Did := by
  refine EndsAs.read ?_
  rw [Relations.delete, stands.catalog, ← getTable_toOption]
  refine EndsAs.seq (endsAs_lift (s.catalog.getTable table)) ?_
  rintro schema s' _ found - ⟨rfl, rfl⟩
  have known := getTable_eq_ok.mp (ExecM.lift_eq_ok.mp found).1
  refine write_endsAs stands known ?_ ?_
  · intro txnId n entered changed enters ran
    exact deleteRows_ok (enters.frame.1 ▸ known)
      (enters.stillStored (stillStored_scan s' table)) ran
  · intro txnId entered enters at_
    rw [stands.rows.scan table]
    have atStart : AtTable s' table schema ([] ++ scanEntries (s'.storage.scan table)) entered := at_
    exact deleteRows_endsAs atStart (enters.stillStored (stillStored_scan s' table))

/-- **`INSERT`**, with or without `ON CONFLICT`. -/
theorem insert_endsAs (stands : StandsFor s rel) (stmt : Insert) :
    EndsAs (insert stmt s) (rel.insert stmt) Did := by
  unfold MoodengSQL.insert Relations.insert
  cases stmt.source with
  | none => exact .fail _
  | some source =>
      refine EndsAs.read ?_
      dsimp only [Option.bind_some]
      rw [stands.catalog, ← getTable_toOption]
      refine EndsAs.seq (endsAs_lift (s.catalog.getTable (extractTableName stmt.tableName))) ?_
      rintro schema s' _ found - ⟨rfl, rfl⟩
      have known := getTable_eq_ok.mp (ExecM.lift_eq_ok.mp found).1
      refine EndsAs.seq (endsAs_lift (valuesFromInsert source)) ?_
      rintro rows s'' _ - - ⟨rfl, rfl⟩
      refine EndsAs.seq (endsAs_lift (conflictClause stmt.on)) ?_
      rintro onConflict s' _ - - ⟨rfl, rfl⟩
      refine write_endsAs stands known ?_ ?_
      · intro txnId n entered changed enters ran
        exact insertRows_ok (enters.frame.1 ▸ known) ran
      · intro txnId entered enters at_
        exact insertRows_endsAs ⟨_, at_, stands.rows.scan _⟩

end Writes

section Schemas

variable [Runtime] {s s' : Executor} {rel : Relations} {table : String} {schema : TableSchema}

omit [Runtime] in
/-- The key of a new table is registered as the relations register it. -/
theorem createPrimaryKeyIndex_endsAs (columns : List ColumnDef)
    (absent : s.indexes.index? table (table ++ "_pkey") = none) :
    EndsAs (createPrimaryKeyIndex table columns s)
      (if (columns.filter ColumnDef.primaryKey).map ColumnDef.name = [] then some s.catalog
        else (s.catalog.addIndex table
          { name := table ++ "_pkey"
            columns := (columns.filter ColumnDef.primaryKey).map ColumnDef.name
            unique := true }).toOption)
      fun _ s' catalog => s'.catalog = catalog ∧ s'.storage = s.storage ∧
        s'.session = s.session := by
  unfold createPrimaryKeyIndex
  dsimp only
  split
  · exact .ret ⟨rfl, rfl, rfl⟩
  · refine EndsAs.read ?_
    have accepted : ∃ indexes, s.indexes.createIndex table (.new (table ++ "_pkey")
        ((columns.filter ColumnDef.primaryKey).map ColumnDef.name) true) = .ok indexes :=
      createIndex_accepts absent
    obtain ⟨indexes, created⟩ := accepted
    refine EndsAs.step (ExecM.lift_eq_ok.mpr ⟨created, rfl⟩) (EndsAs.change ?_)
    refine EndsAs.congr (EndsAs.seqMap (endsAs_lift _) ?_) Option.map_id'
    rintro catalog s' _ - - ⟨rfl, rfl⟩
    exact ⟨⟨⟩, _, rfl, rfl, rfl, rfl⟩

omit [Runtime] in
/-- A schema statement outside transactions, by what it does to catalog and rows. -/
theorem StandsFor.schemaStep (stands : StandsFor s rel)
    (idle : s.session.transaction.active = false) (step : SchemaStep s s')
    (session : s'.session = s.session) {catalog : Catalog} (sameCatalog : s'.catalog = catalog)
    {rows : String → List (List Value)} (holds : Tabulates s'.storage.contents rows) :
    StandsFor s' { rel with catalog, rows } where
  consistent := stands.consistent.schemaStep step
  catalog := sameCatalog.symm
  rows := holds
  saved := by
    obtain ⟨saved, new⟩ := stands.idle idle
    dsimp only
    rw [saved]
    exact session.trans new

/-- **`CREATE TABLE`.** -/
theorem createTable_endsAs (stands : StandsFor s rel)
    (idle : s.session.transaction.active = false) (name : ObjectName)
    (columns : List SqlColumnDef) (constraints : List TableConstraint) :
    EndsAs (createTable name columns constraints s) (rel.createTable name columns constraints)
      Did := by
  suffices done : EndsAs (createTable name columns constraints s)
      (rel.createTable name columns constraints) fun result s' done =>
        result = done.1 ∧ s'.storage.contents = s.storage.contents ∧ s'.session = s.session ∧
          done.2 = { rel with catalog := s'.catalog } by
    refine done.mono ?_
    rintro result s' ⟨_, _⟩ ran - ⟨rfl, contents, session, rfl⟩
    refine ⟨rfl, ?_⟩
    have holds : Tabulates s'.storage.contents rel.rows := by
      rw [contents]
      exact stands.rows
    exact stands.schemaStep idle (createTable_ok ran).1 session rfl holds
  unfold createTable Relations.createTable
  refine EndsAs.seq (endsAs_lift (columns.mapM sqlColumnToDef)) ?_
  rintro colDefs s' _ - - ⟨rfl, rfl⟩
  refine EndsAs.read ?_
  dsimp only
  rw [stands.catalog]
  refine EndsAs.seq (endsAs_lift (s'.catalog.createTable (extractTableName name)
    (markPrimaryKeys (extractPkFromConstraints constraints) colDefs))) ?_
  rintro catalog s'' _ ran - ⟨rfl, rfl⟩
  obtain ⟨absent, -⟩ := createTable_eq_ok (ExecM.lift_eq_ok.mp ran).1
  refine EndsAs.change ?_
  refine EndsAs.seqMap (createPrimaryKeyIndex_endsAs _
    (stands.consistent.defined.index?_eq_none absent _)) ?_
  rintro u s' catalog' - - ⟨rfl, storage, session⟩
  refine ⟨_, s', rfl, rfl, ?_, session, rfl⟩
  rw [storage]
  exact contents_ensureTable _ _

omit [Runtime] in
/-- **`DROP TABLE`.** -/
theorem dropTable_endsAs (stands : StandsFor s rel)
    (idle : s.session.transaction.active = false) (table : String) :
    EndsAs (dropTable table s) (rel.dropTable table) Did := by
  suffices done : EndsAs (dropTable table s) (rel.dropTable table) fun result s' done =>
      result = done.1 ∧ s'.storage = s.storage.dropTable table ∧ s'.session = s.session ∧
        done.2 = { rel.withRows table [] with catalog := s'.catalog } by
    refine done.mono ?_
    rintro result s' ⟨_, _⟩ ran - ⟨rfl, storage, session, rfl⟩
    refine ⟨rfl, stands.schemaStep idle (dropTable_ok ran).1 session rfl ?_⟩
    have contents : s'.storage.contents =
        fun key => if key.1 = table then none else s.storage.contents key := by
      rw [storage]
      exact contents_dropTable s.storage table
    have none : Lists [] (s'.storage.contents.table table) := by
      have vacant : s'.storage.contents.table table = fun _ => none := by
        rw [contents]
        exact funext fun id => if_pos rfl
      rw [vacant]
      exact .nil
    refine stands.rows.update none fun other elsewhere => ?_
    rw [contents]
    exact funext fun id => if_neg elsewhere
  unfold dropTable Relations.dropTable
  refine EndsAs.read ?_
  rw [stands.catalog]
  refine EndsAs.seqMap (endsAs_lift (s.catalog.dropTable table)) ?_
  rintro catalog s' _ - - ⟨rfl, rfl⟩
  exact ⟨_, _, rfl, rfl, rfl, rfl, rfl⟩

omit [Runtime] in
/-- The rows differ in their keys as the entries do. -/
theorem keysDiffer_iff {entries : List (Nat × List Value)} {rows : Nat → Option (List Value)}
    (lists : Lists entries rows) {definition : IndexMeta} {colNames : List String} :
    KeysDiffer definition colNames rows ↔ (definition.unique = true →
      (entries.map Prod.snd).Pairwise fun left right =>
        (!sameKey definition.columns colNames left right) = true) := by
  have sorted := List.pairwise_map.mp lists.ascending
  constructor
  · intro differ unique
    refine List.pairwise_map.mpr (sorted.imp_of_mem ?_)
    rintro ⟨left, leftValues⟩ ⟨right, rightValues⟩ leftRow rightRow less
    rw [Bool.not_eq_true', Bool.eq_false_iff]
    intro same
    exact less.ne (differ unique ((lists.mem_iff _ _).mp leftRow) ((lists.mem_iff _ _).mp rightRow)
      (sameKey_iff.mp same))
  · intro pairwise unique left right leftValues rightValues leftRow rightRow same
    let key (values : List Value) := IndexKey.ofValues (keyValues definition.columns values colNames)
    have apart : entries.Pairwise fun e e' => key e.2 ≠ key e'.2 := by
      refine (List.pairwise_map.mp (pairwise unique)).imp fun differ same => ?_
      rw [sameKey_iff.mpr same] at differ
      cases differ
    have symmetric : Std.Symm fun e e' : Nat × List Value => key e.2 ≠ key e'.2 :=
      ⟨fun _ _ => Ne.symm⟩
    by_contra differ
    exact apart.forall ((lists.mem_iff left leftValues).mpr leftRow)
      ((lists.mem_iff right rightValues).mpr rightRow)
      (fun equal => differ (congrArg Prod.fst equal)) same

omit [Runtime] in
/-- **`CREATE INDEX`.** -/
theorem createIndex_endsAs (stands : StandsFor s rel)
    (idle : s.session.transaction.active = false) (table indexName : String)
    (columns : List String) (unique : Bool) :
    EndsAs (createIndex table indexName columns unique s)
      (rel.createIndex table indexName columns unique) Did := by
  suffices done : EndsAs (createIndex table indexName columns unique s)
      (rel.createIndex table indexName columns unique) fun result s' done =>
        result = done.1 ∧ s'.storage = s.storage ∧ s'.session = s.session ∧
          done.2 = { rel with catalog := s'.catalog } by
    refine done.mono ?_
    rintro result s' ⟨_, _⟩ ran - ⟨rfl, storage, session, rfl⟩
    refine ⟨rfl, ?_⟩
    have holds : Tabulates s'.storage.contents rel.rows := by
      rw [storage]
      exact stands.rows
    exact stands.schemaStep idle (createIndex_ok ran).1 session rfl holds
  unfold createIndex Relations.createIndex
  refine EndsAs.read ?_
  rw [stands.catalog, ← getTable_toOption]
  refine EndsAs.seq (endsAs_lift (s.catalog.getTable table)) ?_
  rintro schema s' _ found - ⟨rfl, rfl⟩
  have known := getTable_eq_ok.mp (ExecM.lift_eq_ok.mp found).1
  cases columns.find? fun column => (Catalog.columnIndex schema column).isNone with
  | some column => exact .fail _
  | none =>
      simp only [Option.isSome_none, Bool.false_eq_true, if_false]
      have exactly : KeysDiffer { name := indexName, columns, unique } schema.colNames
            (s'.storage.contents.table table) ↔
          (unique = true → (rel.rows table).Pairwise fun left right =>
            (!sameKey columns schema.colNames left right) = true) := by
        rw [stands.rows.scan table]
        exact keysDiffer_iff (lists_scan s'.storage table)
      cases built : buildIndex schema.colNames (.new indexName columns unique)
          (s'.storage.scan table) with
      | error e =>
          have clash : ¬(unique = true → (rel.rows table).Pairwise fun left right =>
              (!sameKey columns schema.colNames left right) = true) := by
            intro pairwise
            obtain ⟨index, accepted⟩ := buildIndex_scan_accepts (exactly.mpr pairwise)
            cases built.symm.trans accepted
          rw [if_pos (Classical.not_imp.mp clash)]
          exact endsAs_refused ⟨e, rfl⟩
      | ok index =>
          have differ := exactly.mp (keysDiffer_of_buildIndex built)
          rw [if_neg fun clash => clash.2 (differ clash.1)]
          have named : index.name = indexName :=
            congrArg IndexMeta.name (buildIndex_scan built).2
          refine EndsAs.step (ExecM.lift_eq_ok.mpr ⟨rfl, rfl⟩) ?_
          cases created : s'.indexes.createIndex table index with
          | error e =>
              refine (endsAs_refused ⟨e, rfl⟩).congr ?_
              cases added : s'.catalog.addIndex table { name := indexName, columns, unique } with
              | error e => rfl
              | ok catalog =>
                  obtain ⟨schema', known', fresh, -⟩ := addIndex_eq_ok added
                  have defined := stands.consistent.definitions table index.name
                  rw [known', Option.bind_some, List.find?_eq_none.mpr fun other member => by
                    simpa [named] using fresh other member, Option.map_eq_none_iff] at defined
                  obtain ⟨indexes, accepted⟩ := createIndex_accepts defined
                  cases created.symm.trans accepted
          | ok indexes =>
              refine EndsAs.step (ExecM.lift_eq_ok.mpr ⟨rfl, rfl⟩) (EndsAs.change ?_)
              refine EndsAs.seqMap (endsAs_lift (s'.catalog.addIndex table
                { name := indexName, columns, unique })) ?_
              rintro catalog s'' _ - - ⟨rfl, rfl⟩
              exact ⟨_, _, rfl, rfl, rfl, rfl, rfl⟩

end Schemas

end MoodengSQL
