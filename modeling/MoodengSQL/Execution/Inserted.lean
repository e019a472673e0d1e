import MoodengSQL.Evaluation.Arithmetic
import MoodengSQL.Execution.Upserts

/-!
# The rows `INSERT` adds

A plain `INSERT` adds its rows in order under the next fresh ids. A row is read from
its literals by position: column `i` of the table gets the value at position `i` of
the row, whatever the column list of the statement says, and the literal is narrowed
to the type of the column without a check.
-/

namespace MoodengSQL

open Foundation Foundation.Effect Relation Std

section Insertions

variable [Runtime] {s s' : Executor} {table : String} {schema : TableSchema} {txnId : Nat}

/-- Rows added one after the other. -/
def RowTable.addAll (t : RowTable) (added : List (List Value)) : RowTable :=
  added.foldl (fun t values => t.add (Row.new values)) t

omit [Runtime] in
/-- Adding rows leaves the ids below the next one alone. -/
theorem RowTable.addAll_older (t : RowTable) (added : List (List Value)) {id : Nat}
    (older : id < t.nextId) : (t.addAll added).rows[id]? = t.rows[id]? := by
  induction added generalizing t with
  | nil => rfl
  | cons values rest ih =>
      rw [addAll, List.foldl_cons]
      refine (ih (t.add (Row.new values)) (Nat.lt_succ_of_lt older)).trans ?_
      rw [add, ExtTreeMap.getElem?_insert, if_neg]
      intro same
      have same := Std.compare_eq_iff_eq.mp same
      omega

omit [Runtime] in
/-- The added rows get the next ids in order. -/
theorem RowTable.addAll_added (t : RowTable) (added : List (List Value)) {j : Nat}
    {values : List Value} (here : added[j]? = some values) :
    (t.addAll added).rows[t.nextId + j]? = some (Row.new values) := by
  induction added generalizing t j with
  | nil => cases here
  | cons first rest ih =>
      rw [addAll, List.foldl_cons]
      cases j with
      | zero =>
          cases here
          refine ((t.add (Row.new values)).addAll_older rest (Nat.lt_succ_self _)).trans ?_
          exact ExtTreeMap.getElem?_insert_self
      | succ j =>
          rw [List.getElem?_cons_succ] at here
          have later := ih (t.add (Row.new first)) here
          rwa [add, Nat.add_right_comm t.nextId 1 j] at later

/-- The row loop without a conflict clause adds the coerced rows in order. -/
theorem insertRows_adds {rows : List (List Value)} {count result : Nat}
    (known : s.catalog[table]? = some schema)
    (ran : insertRows table schema none txnId rows count s = .ok result s') :
    ∃ added, List.Forall₂ (fun values stored => coerceRow schema values = .ok stored) rows added ∧
      s'.storage.rowTable table = (s.storage.rowTable table).addAll added := by
  induction rows generalizing s count with
  | nil =>
      obtain ⟨-, rfl⟩ := pure_eq_ok.mp ran
      exact ⟨[], .nil, rfl⟩
  | cons values rest ih =>
      simp only [insertRows, bind_eq_ok, ExecM.lift_eq_ok] at ran
      obtain ⟨stored, _, ⟨coerced, rfl⟩, _, _, ⟨-, rfl⟩, _, mid, kept, ran⟩ := ran
      obtain ⟨step, added⟩ := storeRow_adds known kept
      obtain ⟨later, steps, last⟩ := ih (step.catalog ▸ known) ran
      refine ⟨stored :: later, .cons coerced steps, ?_⟩
      rw [last, added]
      rfl

/-- **A plain `INSERT` adds its rows by position.** -/
theorem insert_adds {stmt : Insert} (plain : stmt.on = none)
    (named : extractTableName stmt.tableName = table) (known : s.catalog[table]? = some schema)
    {source : Query} (given : stmt.source = some source) {rows : List (List Value)}
    (read : valuesFromInsert source = .ok rows) {result : QueryResult}
    (ran : insert stmt s = .ok result s') {j : Nat} {values : List Value}
    (here : rows[j]? = some values) :
    ∃ stored, s'.storage.view (table, (s.storage.rowTable table).nextId + j) =
        some (Row.new stored) ∧
      stored.length = schema.columns.length ∧
      ∀ i column, schema.columns[i]? = some column →
        (values.getD i .null).coerceTo column.dataType = .ok (stored.getD i .null) := by
  subst named
  unfold insert at ran
  simp only [given, plain, conflictClause, bind_eq_ok, get_eq_ok, ExecM.lift_eq_ok, pure_eq_ok,
    getTable_eq_ok, read, Except.ok.injEq] at ran
  obtain ⟨_, _, ⟨rfl, rfl⟩, schema', _, ⟨known', rfl⟩, _, _, ⟨rfl, rfl⟩, _, _, ⟨rfl, rfl⟩, txnId,
    entered, begun, count, changed, loop, _, last, finished, -, rfl⟩ := ran
  obtain rfl : schema = schema' := Option.some.inj (known.symm.trans known')
  have enters := beginWriteTxn_ok begun
  have leaves := finishAutoCommitIfNeeded_ok finished
  have start := enters.othersKept (extractTableName stmt.tableName)
  obtain ⟨added, coerced, became⟩ := insertRows_adds (start.catalog ▸ known) loop
  have before : entered.storage.rowTable (extractTableName stmt.tableName) =
      s.storage.rowTable (extractTableName stmt.tableName) := by
    rw [StorageEngine.rowTable, enters.frame.2.1]
    rfl
  have after : last.storage.rowTable (extractTableName stmt.tableName) =
      changed.storage.rowTable (extractTableName stmt.tableName) := by
    cases leaves <;> rfl
  obtain ⟨length, steps⟩ := List.forall₂_iff_get.mp coerced
  obtain ⟨inRows, rfl⟩ := List.getElem?_eq_some_iff.mp here
  have inAdded : j < added.length := length ▸ inRows
  have step := steps j inRows inAdded
  obtain ⟨width, columns⟩ := List.forall₂_iff_get.mp (except_mapM_eq_ok.mp step)
  rw [List.length_zipIdx] at width
  refine ⟨added[j], ?_, width.symm, fun i column declared => ?_⟩
  · rw [← rowTable_getElem?, after, became, before]
    exact RowTable.addAll_added _ added (List.getElem?_eq_getElem inAdded)
  · obtain ⟨inColumns, rfl⟩ := List.getElem?_eq_some_iff.mp declared
    have inStored : i < (added.get ⟨j, inAdded⟩).length := width ▸ inColumns
    have coercion := columns i (by rwa [List.length_zipIdx]) inStored
    rw [List.getD_eq_getElem added[j] _ inStored]
    simpa only [List.get_eq_getElem, List.getElem_zipIdx, Nat.zero_add] using coercion

end Insertions

section Integers

variable [Runtime] {s s' : Executor} {table : String} {schema : TableSchema} {n : Int}

/-- An integer in decimal, with a leading minus if it is negative. -/
def integerLiteral (n : Int) : Expr :=
  if 0 ≤ n then .value (.number (toString n.natAbs))
  else .unaryOp .minus (.value (.number (toString n.natAbs)))

/-- The type of the columns of a width. -/
def IntWidth.type : IntWidth → DataType
  | .int4 => .int4
  | .int8 => .int8

/-- Row `j` of a plain `INSERT` gives column `i` of the table the integer `n`. -/
structure WritesInteger (stmt : Insert) (schema : TableSchema) (j i : Nat) (n : Int) : Prop where
  plain : stmt.on = none
  written : ∃ source rows row, stmt.source = some source ∧ source.body = .values rows ∧
    rows[j]? = some row ∧ row[i]? = some (integerLiteral n)
  inOrder : stmt.columns <+: schema.colNames

/-- The value `VALUES` reads for an expression: a literal's own, and null for any other. -/
def readLiteral : Expr → Value
  | .value v => Value.fromSqlLiteral v
  | _ => .null

theorem valuesFromInsert_values {source : Query} {rows : List (List Expr)}
    (body : source.body = .values rows) :
    valuesFromInsert source = .ok (rows.map fun row => row.map readLiteral) := by
  rw [valuesFromInsert, body]
  rfl

/-- What `VALUES` reads for an integer. -/
theorem readLiteral_integer (n : Int) : readLiteral (integerLiteral n) =
    if 0 ≤ n then .int8 (if n < 2 ^ 63 then Int64.ofInt n else 0) else .null := by
  unfold integerLiteral
  by_cases nonneg : 0 ≤ n
  · have same : (digitsValue (toString n.natAbs).toList : Int) = n := by
      rw [digitsValue_toString]
      exact Int.natAbs_of_nonneg nonneg
    rw [if_pos nonneg, if_pos nonneg, readLiteral, fromSqlLiteral_decimal (isDecimal_toString _),
      same]
  · rw [if_neg nonneg, if_neg nonneg]
    rfl

/-- A number that is read and narrowed to the width of its column is the one that was
written exactly if it is not negative and fits. -/
theorem coerceTo_integer_iff {width : IntWidth} {stored : Value}
    (coerced : (if 0 ≤ n then Value.int8 (if n < 2 ^ 63 then Int64.ofInt n else 0)
      else .null).coerceTo width.type = .ok stored) :
    asI64 stored = some n ↔ 0 ≤ n ∧ width.Holds n := by
  by_cases nonneg : 0 ≤ n
  · rw [if_pos nonneg] at coerced
    cases width with
    | int4 =>
        cases coerced
        constructor
        · intro same
          have same := Option.some.inj same
          exact ⟨nonneg, same ▸ ⟨Int32.le_toInt _, Int32.toInt_lt _⟩⟩
        · rintro ⟨-, holds⟩
          have small : n < 2 ^ 63 := Int.lt_trans holds.2 (by decide)
          rw [if_pos small, Int64.toInt32_ofInt]
          exact congrArg some (Int32.toInt_ofInt_of_le holds.1 holds.2)
    | int8 =>
        cases coerced
        constructor
        · intro same
          have same := Option.some.inj same
          exact ⟨nonneg, same ▸ ⟨Int64.le_toInt _, Int64.toInt_lt _⟩⟩
        · rintro ⟨-, holds⟩
          rw [if_pos holds.2]
          exact congrArg some (Int64.toInt_ofInt_of_le holds.1 holds.2)
  · rw [if_neg nonneg] at coerced
    cases coerced
    exact ⟨fun same => (nomatch same), fun fits => absurd fits.1 nonneg⟩

/-- **An integer is stored as written exactly if it is not negative and fits its
column.** A negative one becomes null, one that `i64` does not hold zero, and one that
an `INT4` column does not hold wraps. -/
theorem insert_stores_integer_iff {stmt : Insert} (known : s.catalog[table]? = some schema)
    (named : extractTableName stmt.tableName = table) {j i : Nat}
    (writes : WritesInteger stmt schema j i n) {column : ColumnDef} {width : IntWidth}
    (declared : schema.columns[i]? = some column) (typed : column.dataType = width.type)
    {result : QueryResult} (ran : insert stmt s = .ok result s') :
    (∃ row v, s'.storage.view (table, (s.storage.rowTable table).nextId + j) = some row ∧
      row.values[i]? = some v ∧ asI64 v = some n) ↔ 0 ≤ n ∧ width.Holds n := by
  obtain ⟨source, rows, row, given, body, inRows, inRow⟩ := writes.written
  have here : (rows.map fun row => row.map readLiteral)[j]? = some (row.map readLiteral) := by
    rw [List.getElem?_map, inRows]
    rfl
  obtain ⟨stored, added, width', coerced⟩ := insert_adds writes.plain named known given
    (valuesFromInsert_values body) ran here
  have coercion := coerced i column declared
  rw [List.getD_eq_getElem?_getD, List.getElem?_map, inRow, Option.map_some, Option.getD_some,
    readLiteral_integer, typed] at coercion
  rw [← coerceTo_integer_iff coercion]
  obtain ⟨inColumns, -⟩ := List.getElem?_eq_some_iff.mp declared
  have present : stored[i]? = some (stored.getD i .null) := by
    rw [List.getD_eq_getElem?_getD, List.getElem?_eq_getElem (width' ▸ inColumns)]
    rfl
  constructor
  · rintro ⟨row, v, stored', held, same⟩
    obtain rfl := Option.some.inj (added.symm.trans stored')
    obtain rfl := Option.some.inj (present.symm.trans held)
    exact same
  · intro same
    exact ⟨_, _, added, present, same⟩

end Integers

section ColumnLists

variable [Runtime] {s s' : Executor} {table : String} {schema : TableSchema}

/-- The literal that a row has for a column: the one at the position of the column in
the list, and null for a column that is not listed. -/
def listedValue (columns : List String) (literals : List Value) (name : String) : Value :=
  match columns.findIdx? fun column => eqIgnoreAsciiCase column name with
  | some k => literals.getD k .null
  | none => .null

/-- A list with a column of the table for each literal. -/
structure ListMatches (schema : TableSchema) (columns : List String) (literals : List Value) :
    Prop where
  length : columns.length = literals.length
  known : ∀ name ∈ columns, ∃ column ∈ schema.columns,
    eqIgnoreAsciiCase name column.name = true

/-- A new row as its list of columns has it: the list matches the literals, and each
column holds the coerced literal that the list gives it. -/
structure HonoursList (schema : TableSchema) (columns : List String) (literals : List Value)
    (stored : List Value) : Prop where
  accepted : ListMatches schema columns literals
  values : ∀ i column, schema.columns[i]? = some column →
    (listedValue columns literals column.name).coerceTo column.dataType =
      .ok (stored.getD i .null)

/-- Each column gets the same by its position in the table as by the list. -/
def AgreesWithPositions (schema : TableSchema) (columns : List String) (literals : List Value) :
    Prop :=
  ∀ i column, schema.columns[i]? = some column →
    (literals.getD i .null).coerceTo column.dataType =
      (listedValue columns literals column.name).coerceTo column.dataType

omit [Runtime] in
/-- A list of the first columns in their order gives each column what is at its
position, if the names of the columns differ. -/
theorem listedValue_of_leading {columns : List String} {literals : List Value}
    (distinct : schema.colNames.Pairwise fun a b => eqIgnoreAsciiCase a b = false)
    (inOrder : columns <+: schema.colNames) (length : columns.length = literals.length) {i : Nat}
    {column : ColumnDef} (declared : schema.columns[i]? = some column) :
    listedValue columns literals column.name = literals.getD i .null := by
  have name : schema.colNames[i]? = some column.name := by
    rw [TableSchema.colNames, List.getElem?_map, declared]
    rfl
  obtain ⟨inNames, name⟩ := List.getElem?_eq_some_iff.mp name
  have apart : ∀ k (listed : k < columns.length), k < i →
      eqIgnoreAsciiCase columns[k] column.name = false := by
    intro k listed before
    rw [inOrder.getElem listed, ← name]
    exact List.pairwise_iff_getElem.mp distinct k i _ inNames before
  unfold listedValue
  by_cases inside : i < columns.length
  · have found : columns.findIdx? (fun c => eqIgnoreAsciiCase c column.name) = some i := by
      rw [List.findIdx?_eq_some_iff_getElem]
      refine ⟨inside, ?_, fun k before => ?_⟩
      · rw [inOrder.getElem inside, name]
        exact eqIgnoreAsciiCase_iff.mpr rfl
      · rw [apart k (before.trans inside) before]
        exact Bool.false_ne_true
    rw [found]
  · have missing : columns.findIdx? (fun c => eqIgnoreAsciiCase c column.name) = none := by
      rw [List.findIdx?_eq_none_iff]
      intro c member
      obtain ⟨k, listed, rfl⟩ := List.getElem_of_mem member
      exact apart k listed (by omega)
    rw [missing, List.getD_eq_getElem?_getD, List.getElem?_eq_none (by omega)]
    rfl

/-- A list of the first columns agrees with the positions. -/
theorem agreesWithPositions_of_prefix {columns : List String} {literals : List Value}
    (distinct : schema.colNames.Pairwise fun a b => eqIgnoreAsciiCase a b = false)
    (inOrder : columns <+: schema.colNames) (length : columns.length = literals.length) :
    AgreesWithPositions schema columns literals := by
  intro i column declared
  rw [listedValue_of_leading distinct inOrder length declared]

/-- **The column list is honoured exactly where the positions agree with it.** The
new rows hold their literals by position. -/
theorem insert_honours_list_iff {stmt : Insert} (plain : stmt.on = none)
    (named : extractTableName stmt.tableName = table) (known : s.catalog[table]? = some schema)
    {source : Query} (given : stmt.source = some source) {rows : List (List Value)}
    (read : valuesFromInsert source = .ok rows) {result : QueryResult}
    (ran : insert stmt s = .ok result s') {j : Nat} {literals : List Value}
    (here : rows[j]? = some literals) :
    (∃ row, s'.storage.view (table, (s.storage.rowTable table).nextId + j) = some row ∧
      HonoursList schema stmt.columns literals row.values) ↔
      ListMatches schema stmt.columns literals ∧
        AgreesWithPositions schema stmt.columns literals := by
  obtain ⟨stored, added, -, coerced⟩ := insert_adds plain named known given read ran here
  constructor
  · rintro ⟨row, stored', honours⟩
    obtain rfl := Option.some.inj (added.symm.trans stored')
    refine ⟨honours.accepted, fun i column declared => ?_⟩
    rw [coerced i column declared, honours.values i column declared]
    rfl
  · rintro ⟨accepted, agrees⟩
    refine ⟨Row.new stored, added, accepted, fun i column declared => ?_⟩
    rw [← agrees i column declared]
    exact coerced i column declared

end ColumnLists

section Pairs

/-- `CREATE TABLE t (a INT, b INT)`. -/
def createPair : Statement := .createTable ["t"] [⟨"a", .int, []⟩, ⟨"b", .int, []⟩] []

/-- The table that `createPair` creates. -/
def pairSchema : TableSchema :=
  { name := "t", columns := [⟨"a", .int4, true, false⟩, ⟨"b", .int4, true, false⟩], indexes := [] }

/-- `INSERT INTO t (columns) VALUES (exprs)`. -/
def insertPair (columns : List String) (exprs : List Expr) : Insert :=
  ⟨["t"], columns, some ⟨.values [exprs], none, none, none⟩, none⟩

variable [Runtime]

/-- What an `INSERT` stores in the new table. -/
def insertedPair (columns : List String) (exprs : List Expr) :
    Option (Option TableSchema × Nat × Option (List Value)) := do
  let s ← runStatements ddlOutside .fresh [createPair]
  match insert (insertPair columns exprs) s with
  | .ok _ s' => some (s.catalog["t"]?, (s.storage.rowTable "t").nextId,
      (s'.storage.view ("t", 1)).map Row.values)
  | .error .. => none

theorem insert_of_insertedPair (columns : List String) (exprs : List Expr) {values : List Value}
    (computed : insertedPair columns exprs = some (some pairSchema, 1, some values)) :
    ∃ s result s' row, s.catalog["t"]? = some pairSchema ∧
      insert (insertPair columns exprs) s = .ok result s' ∧
      s'.storage.view ("t", (s.storage.rowTable "t").nextId + 0) = some row ∧
      row.values = values := by
  unfold insertedPair at computed
  obtain ⟨s, -, computed⟩ := Option.bind_eq_some_iff.mp computed
  split at computed
  · rename_i result s' ran
    simp only [Option.some.injEq, Prod.mk.injEq] at computed
    obtain ⟨known, nextId, stored⟩ := computed
    obtain ⟨row, stored, same⟩ := Option.map_eq_some_iff.mp stored
    exact ⟨s, result, s', row, known, ran, by rw [nextId]; exact stored, same⟩
  · cases computed

end Pairs

/-- `INSERT INTO t VALUES (-5, 2147483648)` stores null and another number. -/
theorem integers_not_stored : ∃ (s : Executor) (result : QueryResult) (s' : Executor),
    s.catalog["t"]? = some pairSchema ∧
    @insert Runtime.reference (insertPair [] [integerLiteral (-5), integerLiteral 2147483648]) s =
      .ok result s' ∧
    ∃ row, s'.storage.view ("t", (s.storage.rowTable "t").nextId + 0) = some row ∧
      row.values = [.null, .int4 (-2147483648)] := by
  let _ := Runtime.reference
  obtain ⟨s, result, s', row, known, ran, stored, values⟩ :=
    @insert_of_insertedPair _ [] [integerLiteral (-5), integerLiteral 2147483648]
      [.null, .int4 (-2147483648)] (by decide +kernel)
  exact ⟨s, result, s', known, ran, row, stored, values⟩

/-- `INSERT INTO t (b, a) VALUES (1, 2)` gives `a` one and `b` two. -/
theorem list_not_honoured : ∃ (s : Executor) (result : QueryResult) (s' : Executor),
    s.catalog["t"]? = some pairSchema ∧
    @insert Runtime.reference (insertPair ["b", "a"] [integerLiteral 1, integerLiteral 2]) s =
      .ok result s' ∧
    ∃ row, s'.storage.view ("t", (s.storage.rowTable "t").nextId + 0) = some row ∧
      row.values = [.int4 1, .int4 2] ∧
      ¬@HonoursList Runtime.reference pairSchema ["b", "a"] [.int8 1, .int8 2] row.values := by
  let _ := Runtime.reference
  obtain ⟨s, result, s', row, known, ran, stored, values⟩ :=
    @insert_of_insertedPair _ ["b", "a"] [integerLiteral 1, integerLiteral 2]
      [.int4 1, .int4 2] (by decide +kernel)
  refine ⟨s, result, s', known, ran, row, stored, values, fun honours => ?_⟩
  have first := honours.values 0 ⟨"a", .int4, true, false⟩ rfl
  rw [values] at first
  exact absurd first (by decide +kernel)

/-- The largest `INT4` is stored. -/
theorem insert_stores_integer_iff_largest : ∃ (s : Executor) (result : QueryResult)
    (s' : Executor),
    @insert Runtime.reference (insertPair [] [integerLiteral 2147483647]) s = .ok result s' ∧
    ∃ row v, s'.storage.view ("t", (s.storage.rowTable "t").nextId + 0) = some row ∧
      row.values[0]? = some v ∧ asI64 v = some 2147483647 := by
  let _ := Runtime.reference
  obtain ⟨s, result, s', row, known, ran, -, -⟩ :=
    @insert_of_insertedPair _ [] [integerLiteral 2147483647] [.int4 2147483647, .null]
      (by decide +kernel)
  have writes : WritesInteger (insertPair [] [integerLiteral 2147483647]) pairSchema 0 0
      2147483647 := ⟨rfl, ⟨_, _, _, rfl, rfl, rfl, rfl⟩, List.nil_prefix⟩
  have narrow : DataType.int4 = IntWidth.type .int4 := rfl
  have stored := (insert_stores_integer_iff known rfl writes rfl narrow ran).mpr
    ⟨by decide, by decide⟩
  exact ⟨s, result, s', ran, stored⟩

/-- A list in the order of the table. -/
theorem insert_honours_list_iff_in_order : ∃ (s : Executor) (result : QueryResult)
    (s' : Executor),
    @insert Runtime.reference (insertPair ["A"] [integerLiteral 1]) s = .ok result s' ∧
    ∃ row, s'.storage.view ("t", (s.storage.rowTable "t").nextId + 0) = some row ∧
      @HonoursList Runtime.reference pairSchema ["A"] [.int8 1] row.values := by
  let _ := Runtime.reference
  obtain ⟨s, result, s', row, known, ran, -, -⟩ :=
    @insert_of_insertedPair _ ["A"] [integerLiteral 1] [.int4 1, .null] (by decide +kernel)
  have read : valuesFromInsert ⟨.values [[integerLiteral 1]], none, none, none⟩ =
      .ok [[.int8 1]] := by
    decide +kernel
  have here : [[Value.int8 1]][0]? = some [.int8 1] := rfl
  have accepted : ListMatches pairSchema ["A"] [.int8 1] :=
    ⟨rfl, List.forall_mem_singleton.mpr ⟨_, List.mem_cons_self, by decide⟩⟩
  have agrees : AgreesWithPositions pairSchema ["A"] [.int8 1] := by
    intro i column declared
    match i with
    | 0 =>
        cases declared
        decide +kernel
    | 1 =>
        cases declared
        decide +kernel
  exact ⟨s, result, s', ran, (insert_honours_list_iff rfl rfl known rfl read ran here).mpr
    ⟨accepted, agrees⟩⟩

end MoodengSQL
