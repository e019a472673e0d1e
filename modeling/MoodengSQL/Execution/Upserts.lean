import MoodengSQL.Execution.Touched

/-!
# `INSERT ... ON CONFLICT`

The statement looks for a conflicting row through the definition the catalog has
of a unique index and the entries the manager keeps under its name. While indexes,
catalog and rows agree this finds the row that has the proposed row's key, if
there is one, so the row loop is a fold of upserts over the rows of the table.
-/

namespace MoodengSQL

open Foundation Foundation.Effect Relation Std

/-- The rows of a table by id, and the next fresh id. -/
structure RowTable where
  rows : Map Nat Row
  nextId : Nat

namespace RowTable

/-- A row is added under the next fresh id. -/
def add (t : RowTable) (row : Row) : RowTable :=
  { rows := t.rows.insert t.nextId row, nextId := t.nextId + 1 }

/-- A row is replaced. -/
def replace (t : RowTable) (id : Nat) (row : Row) : RowTable :=
  { t with rows := t.rows.insert id row }

/-- The stored row that has the key of these values in an index on the columns. -/
def findKey (t : RowTable) (columns colNames : List String) (values : List Value) :
    Option (Nat × Row) :=
  t.rows.toList.find? fun entry =>
    IndexKey.ofValues (keyValues columns entry.2.values colNames) =
      IndexKey.ofValues (keyValues columns values colNames)

end RowTable

/-- A table as it is stored. -/
def StorageEngine.rowTable (storage : StorageEngine) (table : String) : RowTable :=
  let data := storage.tables.getD table .empty
  { rows := data.rows, nextId := data.nextId }

section Upserts

variable [Runtime]

/-- Whether `DO UPDATE` applies to a row, with `EXCLUDED` bound to the proposed one. -/
def DoUpdate.applies (update : DoUpdate) (schema : TableSchema) (existing proposed : List Value) :
    Except Failure Bool :=
  match update.selection with
  | some condition => evalWhereWithExcluded condition existing schema.colNames (some proposed)
  | none => .ok true

/-- What the action of the clause makes of a table that has a conflicting row. -/
def resolveConflict (schema : TableSchema) (action : OnConflictAction) (t : RowTable)
    (proposed : List Value) (id : Nat) (existing : Row) : Except Failure RowTable :=
  match action with
  | .doNothing => .ok t
  | .doUpdate update => do
      let applies ← update.applies schema existing.values proposed
      if applies then do
        let values ← update.assignments.foldlM (assignStep schema (some proposed)) existing.values
        validateRow schema values
        .ok (t.replace id { values, version := existing.version + 1 })
      else .ok t

/-- An upsert of one row: the row is coerced and checked; if some stored row has
its key the action decides, otherwise it is added. -/
def upsertRow (schema : TableSchema) (columns : List String) (action : OnConflictAction)
    (t : RowTable) (values : List Value) : Except Failure RowTable := do
  let proposed ← coerceRow schema values
  validateRow schema proposed
  match t.findKey columns schema.colNames proposed with
  | none => .ok (t.add (Row.new proposed))
  | some (id, existing) => resolveConflict schema action t proposed id existing

variable {s s' : Executor} {table : String} {schema : TableSchema} {txnId : Nat}

omit [Runtime] in
theorem rowTable_getElem? (storage : StorageEngine) (table : String) (id : Nat) :
    (storage.rowTable table).rows[id]? = storage.view (table, id) :=
  view_of_getD storage.tables table id

/-- A row step changes the rows of its table as it changes the view. -/
theorem RowStep.rowTable_rows {id : Nat} {change : RowChange} {row : Row}
    (step : RowStep txnId (table, id) change s s') (after : change.after = some row) :
    (s'.storage.rowTable table).rows = (s.storage.rowTable table).rows.insert id row := by
  apply ExtTreeMap.ext_getElem?
  intro other
  rw [TableData.rows_insert, rowTable_getElem?, rowTable_getElem?, step.view, after,
    Function.update_apply]
  simp only [Prod.mk.injEq, true_and]

/-- Storing a row adds it under the next fresh id. -/
theorem storeRow_adds {rowValues : List Value} {u : Unit} (known : s.catalog[table]? = some schema)
    (ran : storeRow table schema txnId rowValues s = .ok u s') :
    RowStep txnId (table, (s.storage.rowTable table).nextId) (.insert (Row.new rowValues)) s s' ∧
      s'.storage.rowTable table = (s.storage.rowTable table).add (Row.new rowValues) := by
  obtain ⟨stored, step⟩ := storeRow_ok known ran
  refine ⟨step, ?_⟩
  rw [stored, StorageEngine.rowTable, StorageEngine.insert, StorageEngine.tables_log]
  dsimp only
  rw [ExtTreeMap.getD_insert_self]
  rfl

omit [Runtime] in
theorem rowTable_ext {t t' : RowTable} (rows : t.rows = t'.rows) (nextId : t.nextId = t'.nextId) :
    t = t' := by
  cases t
  cases t'
  cases rows
  cases nextId
  rfl

/-- An update hands out no id. -/
theorem StorageEngine.nextId_update {storage storage' : StorageEngine} {id version : Nat}
    {row : Row} {changed : Bool}
    (ran : storage.update table id row txnId version = .ok (changed, storage')) :
    (storage'.rowTable table).nextId = (storage.rowTable table).nextId := by
  unfold StorageEngine.update at ran
  cases found : storage.tables[table]? with
  | none =>
      rw [found] at ran
      cases ran
  | some data =>
      rw [found] at ran
      dsimp only at ran
      split at ran
      · cases ran
        rfl
      · split at ran
        · cases ran
        · cases ran
          simp only [StorageEngine.rowTable, StorageEngine.tables_log,
            ExtTreeMap.getD_eq_getD_getElem?, ExtTreeMap.getElem?_insert_self, found,
            Option.getD_some]
          rfl

/-- Rewriting a row replaces it. -/
theorem rewriteRow_replaces {assignments : List Assignment} {excluded : Option (List Value)}
    {id : Nat} {row : Row} {u : Unit} (known : s.catalog[table]? = some schema)
    (current : s.storage.view (table, id) = some row)
    (ran : rewriteRow table schema assignments excluded txnId id row s = .ok u s') :
    ∃ values, assignments.foldlM (assignStep schema excluded) row.values = .ok values ∧
      validateRow schema values = .ok () ∧
      RowStep txnId (table, id) (.update row { values, version := row.version + 1 }) s s' ∧
      s'.storage.rowTable table =
        (s.storage.rowTable table).replace id { values, version := row.version + 1 } := by
  obtain ⟨values, assigned, valid, ⟨changed, updated⟩, step⟩ := rewriteRow_ok known current ran
  exact ⟨values, assignAll_eq_ok assigned, valid, step,
    rowTable_ext (step.rowTable_rows rfl) (StorageEngine.nextId_update updated)⟩

omit [Runtime] in
/-- Names that agree up to case read the same columns. -/
theorem keyValues_congr {columns columns' colNames : List String} {values : List Value}
    (same : List.Forall₂ (fun a b => eqIgnoreAsciiCase a b = true) columns columns') :
    keyValues columns values colNames = keyValues columns' values colNames := by
  induction same with
  | nil => rfl
  | cons first _ ih =>
      unfold keyValues at ih ⊢
      rw [List.map_cons, List.map_cons, ih]
      simp only [eqIgnoreAsciiCase_congr first]

omit [Runtime] in
/-- The unique index a conflict target matches, as the catalog defines it. -/
theorem findUniqueIndexForColumns_eq_some {cols : List String} {indexName : String}
    (found : findUniqueIndexForColumns schema cols = some indexName) :
    ∃ definition ∈ schema.indexes, definition.name = indexName ∧ definition.unique = true ∧
      List.Forall₂ (fun a b => eqIgnoreAsciiCase a b = true) definition.columns cols := by
  obtain ⟨definition, first, rfl⟩ := Option.map_eq_some_iff.mp found
  have matched := List.find?_some first
  simp only [Bool.and_eq_true, beq_iff_eq, List.all_eq_true] at matched
  obtain ⟨⟨unique, length⟩, same⟩ := matched
  refine ⟨definition, List.mem_of_find?_eq_some first, rfl, unique, ?_⟩
  exact List.forall₂_iff_zip.mpr ⟨length, fun {a b} member => same (a, b) member⟩

omit [Runtime] in
/-- The manager has the index under the name the catalog gives it. -/
theorem Consistent.index_of_definition (consistent : Consistent s)
    (known : s.catalog[table]? = some schema) {definition : IndexMeta}
    (member : definition ∈ schema.indexes) :
    ∃ index, s.indexes.index? table definition.name = some index ∧
      index.definition = definition := by
  have matched := consistent.definitions table definition.name
  rw [known, Option.bind_some, find?_definition (consistent.namesDiffer known) member] at matched
  obtain ⟨index, present, same⟩ := Option.map_eq_some_iff.mp matched
  exact ⟨index, present, same⟩

omit [Runtime] in
/-- The lookup finds the stored row with the key, if there is one. -/
theorem lookup_eq_findKey (consistent : Consistent s) (known : s.catalog[table]? = some schema)
    {definition : IndexMeta} (member : definition ∈ schema.indexes)
    (unique : definition.unique = true) (values : List Value) :
    (s.indexes.lookup table definition.name
        (keyValues definition.columns values schema.colNames)).head? =
      ((s.storage.rowTable table).findKey definition.columns schema.colNames values).map
        Prod.fst := by
  obtain ⟨index, present, same⟩ := consistent.index_of_definition known member
  have columns : index.columns = definition.columns := congrArg IndexMeta.columns same
  have exact := consistent.agree known present
  have looked : s.indexes.lookup table definition.name
      (keyValues definition.columns values schema.colNames) =
        index.ids (index.keyOf schema.colNames values) := by
    rw [IndexManager.index?] at present
    rw [IndexManager.lookup, present, BTreeIndex.keyOf, columns]
    rfl
  have listed : ∀ id row, (id, row) ∈ (s.storage.rowTable table).rows.toList ↔
      s.storage.view (table, id) = some row := by
    intro id row
    rw [ExtTreeMap.mem_toList_iff_getElem?_eq_some, rowTable_getElem?]
  have keyed : ∀ id row, s.storage.view (table, id) = some row →
      (id ∈ index.ids (index.keyOf schema.colNames values) ↔
        index.keyOf schema.colNames row.values = index.keyOf schema.colNames values) := by
    intro id row here
    rw [exact.mem_ids, Contents.table, StorageEngine.contents, here]
    constructor
    · rintro ⟨_, stored, key⟩
      obtain rfl := Option.some.inj stored
      exact key
    · exact fun key => ⟨row.values, rfl, key⟩
  rw [looked]
  cases found : (s.storage.rowTable table).findKey definition.columns schema.colNames values with
  | none =>
      rw [Option.map_none, List.head?_eq_none_iff, List.eq_nil_iff_forall_not_mem]
      intro id inside
      obtain ⟨stored, held, -⟩ := (exact.mem_ids _ id).mp inside
      obtain ⟨row, here, rfl⟩ := Option.map_eq_some_iff.mp held
      have apart := List.find?_eq_none.mp found (id, row) ((listed id row).mpr here)
      rw [← columns] at apart
      exact apart (decide_eq_true ((keyed id row here).mp inside))
  | some entry =>
      obtain ⟨id, row⟩ := entry
      have here := (listed id row).mp (List.mem_of_find?_eq_some found)
      unfold RowTable.findKey at found
      have key := List.find?_some found
      rw [← columns] at key
      have inside := (keyed id row here).mpr (of_decide_eq_true key)
      have single := index.ids_length_le_one
        ((congrArg IndexMeta.unique same).trans unique) (index.keyOf schema.colNames values)
      obtain ⟨only, ids⟩ := List.length_eq_one_iff.mp
        (Nat.le_antisymm single (List.length_pos_of_mem inside))
      rw [ids, List.mem_singleton] at inside
      rw [ids, inside]
      rfl

omit [Runtime] in
/-- The conflicting row of the source is the stored row with the proposed key. -/
theorem findConflictRow_eq_ok (consistent : Consistent s)
    (known : s.catalog[table]? = some schema) {conflict : OnConflict} {cols : List String}
    (target : resolveConflictColumns schema conflict = .ok cols) {definition : IndexMeta}
    (member : definition ∈ schema.indexes) (unique : definition.unique = true)
    (found : findUniqueIndexForColumns schema cols = some definition.name)
    (same : List.Forall₂ (fun a b => eqIgnoreAsciiCase a b = true) definition.columns cols)
    (proposed : List Value) :
    findConflictRow s.indexes schema table conflict proposed =
      .ok (((s.storage.rowTable table).findKey definition.columns schema.colNames proposed).map
        Prod.fst) := by
  rw [← lookup_eq_findKey consistent known member unique]
  simp only [findConflictRow, target, found, bind, Except.bind, keyValues_congr same]

/-- `DO UPDATE` on a conflicting row. -/
theorem applyConflictUpdate_resolves (consistent : Consistent s)
    (known : s.catalog[table]? = some schema) {id : Nat} {existing : Row}
    (current : s.storage.view (table, id) = some existing) {proposed : List Value}
    {update : DoUpdate} {u : Unit}
    (ran : applyConflictUpdate table schema id proposed update txnId s = .ok u s') :
    resolveConflict schema (.doUpdate update) (s.storage.rowTable table) proposed id existing =
        .ok (s'.storage.rowTable table) ∧
      Consistent s' ∧ OthersKept table s s' := by
  simp only [applyConflictUpdate, bind_eq_ok, get_eq_ok] at ran
  obtain ⟨_, _, ⟨rfl, rfl⟩, ran⟩ := ran
  rw [StorageEngine.get_eq_view, current] at ran
  have resolved : ∀ applies : Bool, update.applies schema existing.values proposed = .ok applies →
      (if applies then rewriteRow table schema update.assignments (some proposed) txnId id
        existing else pure ()) s = .ok u s' →
      resolveConflict schema (.doUpdate update) (s.storage.rowTable table) proposed id existing =
        .ok (s'.storage.rowTable table) ∧ Consistent s' ∧ OthersKept table s s' := by
    intro applies decided ran
    cases applies with
    | true =>
        obtain ⟨values, assigned, valid, step, replaced⟩ := rewriteRow_replaces known current ran
        refine ⟨?_, consistent.rowStep step, step.othersKept⟩
        simp only [resolveConflict, decided, assigned, valid, bind, Except.bind, if_true, replaced]
    | false =>
        obtain ⟨-, rfl⟩ := pure_eq_ok.mp ran
        refine ⟨?_, consistent, .refl table s⟩
        simp only [resolveConflict, decided, bind, Except.bind, Bool.false_eq_true, if_false]
  cases condition : update.selection with
  | none =>
      simp only [condition, bind_eq_ok, pure_eq_ok] at ran
      obtain ⟨applies, _, ⟨rfl, rfl⟩, ran⟩ := ran
      exact resolved true (by rw [DoUpdate.applies, condition]) ran
  | some clause =>
      simp only [condition, bind_eq_ok, ExecM.lift_eq_ok] at ran
      obtain ⟨applies, _, ⟨decided, rfl⟩, ran⟩ := ran
      exact resolved applies (by rw [DoUpdate.applies, condition]; exact decided) ran

/-- **The row loop is a fold of upserts.** -/
theorem insertRows_upserts {conflict : OnConflict} {cols : List String} {definition : IndexMeta}
    (target : resolveConflictColumns schema conflict = .ok cols)
    (member : definition ∈ schema.indexes) (unique : definition.unique = true)
    (found : findUniqueIndexForColumns schema cols = some definition.name)
    (same : List.Forall₂ (fun a b => eqIgnoreAsciiCase a b = true) definition.columns cols)
    {rows : List (List Value)} {count result : Nat} (consistent : Consistent s)
    (known : s.catalog[table]? = some schema)
    (ran : insertRows table schema (some conflict) txnId rows count s = .ok result s') :
    rows.foldlM (upsertRow schema definition.columns conflict.action) (s.storage.rowTable table) =
        .ok (s'.storage.rowTable table) ∧
      Consistent s' ∧ OthersKept table s s' := by
  induction rows generalizing s count with
  | nil =>
      obtain ⟨-, rfl⟩ := pure_eq_ok.mp ran
      exact ⟨rfl, consistent, .refl table s⟩
  | cons values rest ih =>
      -- what one row does, and the induction hypothesis for the rest
      have goOn : ∀ {mid : Executor} {count : Nat},
          upsertRow schema definition.columns conflict.action (s.storage.rowTable table) values =
            .ok (mid.storage.rowTable table) →
          Consistent mid → OthersKept table s mid →
          insertRows table schema (some conflict) txnId rest count mid = .ok result s' →
          (values :: rest).foldlM (upsertRow schema definition.columns conflict.action)
              (s.storage.rowTable table) = .ok (s'.storage.rowTable table) ∧
            Consistent s' ∧ OthersKept table s s' := by
        intro mid count upserted consistent others ran
        obtain ⟨folded, consistent, later⟩ := ih consistent (others.catalog ▸ known) ran
        refine ⟨?_, consistent, others.trans later⟩
        rw [List.foldlM_cons]
        exact except_bind_eq_ok.mpr ⟨_, upserted, folded⟩
      simp only [insertRows, bind_eq_ok, ExecM.lift_eq_ok, get_eq_ok] at ran
      obtain ⟨proposed, _, ⟨coerced, rfl⟩, _, _, ⟨valid, rfl⟩, _, _, ⟨rfl, rfl⟩, existing, _,
        ⟨conflicting, rfl⟩, ran⟩ := ran
      rw [findConflictRow_eq_ok consistent known target member unique found same] at conflicting
      have keyed := Except.ok.inj conflicting
      have upsert : ∀ {t : RowTable},
          (match (s.storage.rowTable table).findKey definition.columns schema.colNames proposed with
            | none => .ok ((s.storage.rowTable table).add (Row.new proposed))
            | some (id, row) =>
                resolveConflict schema conflict.action (s.storage.rowTable table) proposed id row) =
            Except.ok t →
          upsertRow schema definition.columns conflict.action (s.storage.rowTable table) values =
            .ok t := by
        intro t resolved
        simp only [upsertRow, coerced, valid, bind, Except.bind]
        exact resolved
      cases hit : (s.storage.rowTable table).findKey definition.columns schema.colNames proposed with
      | none =>
          rw [hit] at keyed
          subst keyed
          obtain ⟨_, mid, stored, ran⟩ := bind_eq_ok.mp ran
          obtain ⟨step, added⟩ := storeRow_adds known stored
          refine goOn (upsert ?_) (consistent.rowStep step) step.othersKept ran
          rw [hit, added]
      | some entry =>
          obtain ⟨id, row⟩ := entry
          rw [hit] at keyed
          subst keyed
          have current : s.storage.view (table, id) = some row := by
            rw [← rowTable_getElem?]
            exact ExtTreeMap.mem_toList_iff_getElem?_eq_some.mp (List.mem_of_find?_eq_some hit)
          cases action : conflict.action with
          | doNothing =>
              simp only [action] at ran
              rw [← action]
              refine goOn (upsert ?_) consistent (.refl table s) ran
              rw [hit, action]
              rfl
          | doUpdate update =>
              simp only [action] at ran
              obtain ⟨_, mid, updated, ran⟩ := bind_eq_ok.mp ran
              obtain ⟨resolved, consistent, others⟩ :=
                applyConflictUpdate_resolves consistent known current updated
              rw [← action]
              refine goOn (upsert ?_) consistent others ran
              rw [hit, action]
              exact resolved

/-- **`INSERT ... ON CONFLICT` is an upsert.** The table becomes the fold of the
upserts of the proposed rows, in order, by the key of the unique index the conflict
target matches; no row of another table changes; and at the end no two rows of the
table share a key of that index. -/
theorem insert_on_conflict_is_upsert (consistent : Consistent s) {stmt : Insert}
    (named : extractTableName stmt.tableName = table)
    (known : s.catalog[table]? = some schema) {source : Query}
    (given : stmt.source = some source) {rows : List (List Value)}
    (proposed : valuesFromInsert source = .ok rows) {conflict : OnConflict}
    (clause : stmt.on = some (.onConflict conflict)) {cols : List String}
    (target : resolveConflictColumns schema conflict = .ok cols) {indexName : String}
    (matched : findUniqueIndexForColumns schema cols = some indexName) :
    ∃ index, s.indexes.index? table indexName = some index ∧
      index.unique = true ∧
      ∀ result s', insert stmt s = .ok result s' →
        rows.foldlM (upsertRow schema index.columns conflict.action)
            (s.storage.rowTable table) =
          .ok (s'.storage.rowTable table) ∧
        OthersKept table s s' ∧
        ∀ left right leftRow rightRow,
          s'.storage.view (table, left) = some leftRow →
          s'.storage.view (table, right) = some rightRow →
          index.keyOf schema.colNames leftRow.values =
            index.keyOf schema.colNames rightRow.values → left = right := by
  subst named
  obtain ⟨definition, member, rfl, unique, same⟩ := findUniqueIndexForColumns_eq_some matched
  obtain ⟨index, present, defined⟩ := consistent.index_of_definition known member
  obtain rfl := defined
  refine ⟨index, present, unique, fun result s' ran => ?_⟩
  unfold insert at ran
  simp only [given, clause, conflictClause, bind_eq_ok, get_eq_ok, ExecM.lift_eq_ok, pure_eq_ok,
    getTable_eq_ok, proposed, Except.ok.injEq] at ran
  obtain ⟨_, _, ⟨rfl, rfl⟩, schema', _, ⟨known', rfl⟩, _, _, ⟨rfl, rfl⟩, _, _, ⟨rfl, rfl⟩, txnId,
    entered, begun, count, changed, stored, _, last, finished, -, rfl⟩ := ran
  obtain rfl : schema = schema' := Option.some.inj (known.symm.trans known')
  have enters := beginWriteTxn_ok begun
  have leaves := finishAutoCommitIfNeeded_ok finished
  have start := enters.othersKept (extractTableName stmt.tableName)
  have begins : Consistent entered :=
    consistent.congr enters.frame.1 enters.frame.2.1 enters.frame.2.2.1
  obtain ⟨folded, changedConsistent, others⟩ :=
    insertRows_upserts target member unique matched same begins (start.catalog ▸ known) stored
  have enteredTable : entered.storage.rowTable (extractTableName stmt.tableName) =
      s.storage.rowTable (extractTableName stmt.tableName) := by
    rw [StorageEngine.rowTable, enters.frame.2.1]
    rfl
  have ended : Consistent last ∧ last.storage.rowTable (extractTableName stmt.tableName) =
      changed.storage.rowTable (extractTableName stmt.tableName) := by
    cases leaves with
    | explicit => exact ⟨changedConsistent, rfl⟩
    | automatic => exact ⟨changedConsistent.committed _, rfl⟩
  have kept := (start.trans others).trans (leaves.othersKept _)
  refine ⟨by rw [ended.2, ← enteredTable]; exact folded, kept, ?_⟩
  intro left right leftRow rightRow leftHere rightHere sameKey
  have knownNow : last.catalog[extractTableName stmt.tableName]? = some schema :=
    kept.catalog ▸ known
  obtain ⟨index', present', defined⟩ := ended.1.index_of_definition knownNow member
  rw [← IndexExact.keyOf_eq_of_definition defined] at sameKey
  have unique' : index'.unique = true := (congrArg IndexMeta.unique defined).trans unique
  refine ended.1.agree.distinguishes knownNow present' unique' ?_ ?_ sameKey
  · rw [StorageEngine.contents, leftHere]
    rfl
  · rw [StorageEngine.contents, rightHere]
    rfl

end Upserts

/-- `ON CONFLICT (ID) DO UPDATE SET id = EXCLUDED.id`. -/
def onIdConflict : OnConflict :=
  ⟨some (.columns ["ID"]),
    .doUpdate ⟨[⟨.columnName ["id"], .compoundIdentifier ["excluded", "id"]⟩], none⟩⟩

/-- `INSERT INTO t VALUES (2), (3), (3) ON CONFLICT (ID) …`. -/
def upsertT : Insert :=
  ⟨["t"], [], some ⟨.values (["2", "3", "3"].map fun n => [.value (.number n)]), none, none, none⟩,
    some (.onConflict onIdConflict)⟩

/-- A conflict with a stored row and one with a row of the same statement. -/
theorem insert_on_conflict_is_upsert_twice : ∃ (s : Executor) (schema : TableSchema) (result : _)
    (s' : Executor) (index : BTreeIndex),
    @runStatements Runtime.reference ddlOutside .fresh [createT, insertT [1, 2]] = some s ∧
    s.catalog["t"]? = some schema ∧ @insert Runtime.reference upsertT s = .ok result s' ∧
    s.indexes.index? "t" "t_pkey" = some index ∧
    [[.int8 2], [.int8 3], [.int8 3]].foldlM
        (@upsertRow Runtime.reference schema index.columns onIdConflict.action)
        (s.storage.rowTable "t") =
      .ok (s'.storage.rowTable "t") ∧
    OthersKept "t" s s' := by
  let _ := Runtime.reference
  obtain ⟨s, ran⟩ : ∃ s, runStatements ddlOutside .fresh [createT, insertT [1, 2]] = some s :=
    Option.isSome_iff_exists.mp (by decide +kernel)
  have consistent := (Run.of_runStatements ran).consistent.1
  have computed : (runStatements ddlOutside .fresh [createT, insertT [1, 2]]).map (fun s =>
      (s.catalog["t"]?.map fun schema =>
        (resolveConflictColumns schema onIdConflict, findUniqueIndexForColumns schema ["ID"]),
        (insert upsertT s matches .ok _ _ : Bool))) =
      some (some (.ok ["ID"], some "t_pkey"), true) := by
    decide +kernel
  rw [ran] at computed
  simp only [Option.map_some, Option.some.injEq, Prod.mk.injEq] at computed
  obtain ⟨columns, inserts⟩ := computed
  obtain ⟨schema, known, matched⟩ := Option.map_eq_some_iff.mp columns
  obtain ⟨target, matched⟩ := Prod.mk.inj matched
  have values : valuesFromInsert ⟨.values (["2", "3", "3"].map fun n => [.value (.number n)]),
      none, none, none⟩ = .ok [[.int8 2], [.int8 3], [.int8 3]] := by
    decide +kernel
  obtain ⟨index, present, -, upserts⟩ :=
    @insert_on_conflict_is_upsert _ s "t" schema consistent upsertT rfl known _ rfl _ values _ rfl
      _ target _ matched
  cases ended : insert upsertT s with
  | error e s' => rw [ended] at inserts; exact nomatch inserts
  | ok result s' =>
      obtain ⟨folded, others, -⟩ := upserts result s' ended
      exact ⟨s, schema, result, s', index, ran, known, ended, present, folded, others⟩

end MoodengSQL
