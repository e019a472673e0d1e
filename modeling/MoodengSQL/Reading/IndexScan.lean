import MoodengSQL.Evaluation.Comparisons
import MoodengSQL.Execution.Runs

/-!
# Index scans

Where the planner reads an index, a row the `WHERE` clause keeps has the looked
up key: the equality of the evaluator implies the one of the index, and both
resolve the column to the same position. So an index scan keeps the rows that a
sequential scan keeps.
-/

namespace MoodengSQL

open Std

section Names

theorem toLower_eq_dot {c : Char} (lower : c.toLower = '.') : c = '.' := by
  unfold Char.toLower at lower
  split at lower
  · rename_i upper
    have value := congrArg (fun c => c.val.toNat) lower
    have low := UInt32.le_iff_toNat_le.mp upper.1
    have high := UInt32.le_iff_toNat_le.mp upper.2
    simp only [UInt32.toNat_add] at value
    change (c.val.toNat + 32) % 2 ^ 32 = 46 at value
    change 65 ≤ c.val.toNat at low
    change c.val.toNat ≤ 90 at high
    omega
  · exact lower

theorem eqIgnoreAsciiCase_iff {left right : String} :
    eqIgnoreAsciiCase left right = true ↔
      left.toList.map Char.toLower = right.toList.map Char.toLower := by
  rw [eqIgnoreAsciiCase, beq_iff_eq]

/-- Names that agree up to case match the same names. -/
theorem eqIgnoreAsciiCase_congr {left right : String} (same : eqIgnoreAsciiCase left right = true)
    (name : String) : eqIgnoreAsciiCase name left = eqIgnoreAsciiCase name right := by
  rw [eqIgnoreAsciiCase, eqIgnoreAsciiCase, eqIgnoreAsciiCase_iff.mp same]

/-- A name that agrees with a plain one up to case is plain. -/
theorem plain_of_eqIgnoreAsciiCase {name column : String}
    (same : eqIgnoreAsciiCase name column = true) (plain : '.' ∉ name.toList) :
    '.' ∉ column.toList := by
  intro dotted
  have mapped : '.' ∈ name.toList.map Char.toLower := by
    rw [eqIgnoreAsciiCase_iff.mp same]
    exact List.mem_map.mpr ⟨'.', dotted, rfl⟩
  obtain ⟨c, member, lower⟩ := List.mem_map.mp mapped
  exact plain (toLower_eq_dot lower ▸ member)

/-- The bare name of a plain column is the column. -/
theorem bareName_of_plain {column : String} (plain : '.' ∉ column.toList) :
    bareName column = column := by
  have kept : column.toList.reverse.takeWhile (· ≠ '.') = column.toList.reverse := by
    refine List.takeWhile_eq_self_iff.mpr fun c member => ?_
    have differ : c ≠ '.' := fun same => plain (same ▸ List.mem_reverse.mp member)
    simpa using differ
  rw [bareName, kept, List.reverse_reverse, String.ofList_toList]

end Names

section Values

variable [Runtime]

/-- Rows without floating-point values. -/
def Value.isFloat : Value → Bool
  | .float4 _ => true
  | .float8 _ => true
  | _ => false

omit [Runtime] in
theorem ofValue_of_asI64 {value : Value} {n : Int} (integer : asI64 value = some n) :
    ComparableValue.ofValue value = .int (Int64.ofInt n) := by
  cases value with
  | int4 m =>
      cases integer
      rw [ComparableValue.ofValue, ← Int32.toInt_toInt64, Int64.ofInt_toInt]
  | int8 m =>
      cases integer
      rw [ComparableValue.ofValue, Int64.ofInt_toInt]
  | _ => cases integer

/-- **Values that the evaluator holds equal have the same image in an index.** -/
theorem ofValue_eq_of_valuesEqual {left right : Value}
    (exact : left.isFloat = false ∨ right.isFloat = false)
    (equal : valuesEqual left right = true) :
    ComparableValue.ofValue left = ComparableValue.ofValue right := by
  cases leftInt : asI64 left with
  | some l => cases rightInt : asI64 right with
    | some r =>
        rw [valuesEqual_of_asI64 leftInt rightInt, beq_iff_eq] at equal
        rw [ofValue_of_asI64 leftInt, ofValue_of_asI64 rightInt, equal]
    | none => cases left <;> cases leftInt <;> cases right <;> cases rightInt <;> cases equal
  | none => cases left with
    | null =>
        cases right <;> cases equal
        rfl
    | text l => cases right with
      | text r =>
          have same : l = r := beq_iff_eq.mp equal
          rw [same]
      | _ => cases equal
    | bool l => cases right with
      | bool r =>
          have same : l = r := beq_iff_eq.mp equal
          rw [same]
      | _ => cases equal
    | float8 l => cases right with
      | float8 r => rcases exact with exact | exact <;> cases exact
      | _ => cases equal
    | int4 n => cases leftInt
    | int8 n => cases leftInt
    | _ => cases right <;> cases equal

theorem evalWhere_eq {left right : Expr} {l r : Value} {row : List Value} {columns : List String}
    (leftValue : evalExpr left row columns = .ok l)
    (rightValue : evalExpr right row columns = .ok r) :
    evalWhere (.binaryOp left .eq right) row columns =
      .ok (if l.isNull || r.isNull then false else valuesEqual l r) := by
  rw [evalExpr] at leftValue rightValue
  simp only [evalWhere, evalWhereWithExcluded, evalExprWithExcluded, leftValue, rightValue, bind,
    Except.bind, evalBinary_eq]

/-- **A clause the planner reads an equality from** compares the column with the
literal, whichever stands first and however deep it is nested. -/
theorem evalWhere_of_extractEquality {expr : Expr} {column : String} {literal value : Value}
    {row : List Value} {columns : List String}
    (extracted : extractEquality expr = some (column, literal))
    (found : columnValue column row columns = .ok value) :
    ∃ keep, evalWhere expr row columns = .ok keep ∧
      (keep = true → valuesEqual value literal = true ∨ valuesEqual literal value = true) := by
  fun_induction extractEquality expr with
  | case1 name v =>
      obtain ⟨rfl, rfl⟩ := Prod.mk.inj (Option.some.inj extracted)
      refine ⟨_, evalWhere_eq found rfl, fun kept => ?_⟩
      split at kept
      · cases kept
      · exact .inl kept
  | case2 v name =>
      obtain ⟨rfl, rfl⟩ := Prod.mk.inj (Option.some.inj extracted)
      refine ⟨_, evalWhere_eq rfl found, fun kept => ?_⟩
      split at kept
      · cases kept
      · exact .inr kept
  | case3 inner ih => exact ih extracted
  | case4 => cases extracted

end Values

section Scans

variable [Runtime]

/-- The rows `select` keeps under a plan, before it groups, sorts and projects. -/
def keptRows (db : Database) (table : String) (whereClause : Option Expr) (colNames : List String)
    (plan : ScanPlan) : Except Failure (List Row) := do
  let candidates ← candidateRows db table plan
  filterRows whereClause colNames (candidates.map Prod.snd)

/-- A condition holds of a row. -/
def satisfied (columns : List String) (row : List Value) (condition : Expr) : Bool :=
  match evalWhere condition row columns with
  | .ok keep => keep
  | .error _ => false

theorem satisfied_eq_true {columns : List String} {row : List Value} {condition : Expr} :
    satisfied columns row condition = true ↔ evalWhere condition row columns = .ok true := by
  unfold satisfied
  cases evalWhere condition row columns <;> simp

theorem satisfied_of_ok {columns : List String} {row : List Value} {condition : Expr}
    {keep : Bool} (evaluates : evalWhere condition row columns = .ok keep) :
    satisfied columns row condition = keep := by
  simp only [satisfied, evaluates]

/-- A clause that is decided for every row filters the rows. -/
theorem filterRows_eq {whereClause : Expr} {colNames : List String} {keep : Row → Bool}
    {rows : List Row}
    (decided : ∀ row ∈ rows, evalWhere whereClause row.values colNames = .ok (keep row)) :
    filterRows (some whereClause) colNames rows = .ok (rows.filter keep) := by
  induction rows with
  | nil => rfl
  | cons row rest ih =>
      have first := decided row List.mem_cons_self
      have later := ih fun other member => decided other (List.mem_cons_of_mem _ member)
      simp only [filterRows, first, later, bind, Except.bind, List.filter_cons]

/-- What an index plan comes from. -/
theorem planScan_eq_indexLookup {table : String} {whereClause : Option Expr}
    {indexes : IndexManager} {colNames : List String} {indexName : String} {keys : List Value}
    (planned : planScan table whereClause indexes colNames = .indexLookup indexName keys) :
    ∃ expr column literal index indexColumn, whereClause = some expr ∧
      extractEquality expr = some (column, literal) ∧ keys = [literal] ∧
      (∃ name ∈ colNames, eqIgnoreAsciiCase name column = true) ∧
      indexes.index? table indexName = some index ∧ index.columns = [indexColumn] ∧
      eqIgnoreAsciiCase indexColumn column = true := by
  unfold planScan at planned
  split at planned
  · cases planned
  · rename_i column literal extracted
    obtain ⟨expr, rfl, extracted⟩ := Option.bind_eq_some_iff.mp extracted
    split at planned
    · cases planned
    · rename_i listed
      split at planned
      · rename_i name chosen
        cases planned
        have named : ∃ name ∈ colNames, eqIgnoreAsciiCase name column = true := by
          simpa using listed
        unfold IndexManager.findIndexForColumn at chosen
        split at chosen
        · cases chosen
        · rename_i tableIndexes held
          obtain ⟨⟨name, index⟩, picked, rfl⟩ := Option.map_eq_some_iff.mp chosen
          have member := (Runtime.hashOrder.perm _ _).mem_iff.mp (List.mem_of_find?_eq_some picked)
          have present : indexes.index? table name = some index := by
            rw [IndexManager.index?, ExtTreeMap.getD_eq_getD_getElem?, held, Option.getD_some]
            exact ExtTreeMap.mem_toList_iff_getElem?_eq_some.mp member
          have matching := List.find?_some picked
          dsimp only at matching
          split at matching
          · rename_i indexColumn columns
            exact ⟨expr, column, literal, index, indexColumn, rfl, extracted, rfl, named, present,
              columns, matching⟩
          · cases matching
      · cases planned

omit [Runtime] in
/-- A column under a name that is listed up to case is found where the index
looks for it. -/
theorem columnValue_eq_keyValues {colNames : List String} {column indexColumn : String}
    (plain : ∀ name ∈ colNames, '.' ∉ name.toList)
    (listed : ∃ name ∈ colNames, eqIgnoreAsciiCase name column = true)
    (same : eqIgnoreAsciiCase indexColumn column = true) (values : List Value) :
    ∃ value, columnValue column values colNames = .ok value ∧
      keyValues [indexColumn] values colNames = [value] ∧ (value ∈ values ∨ value = .null) := by
  obtain ⟨name, member, matches'⟩ := listed
  have bare := bareName_of_plain (plain_of_eqIgnoreAsciiCase matches' (plain name member))
  have position : colNames.findIdx? (fun name => eqIgnoreAsciiCase name column ||
      eqIgnoreAsciiCase name (bareName column)) =
      colNames.findIdx? fun name => eqIgnoreAsciiCase name indexColumn := by
    congr 1
    funext name
    rw [bare, Bool.or_self, eqIgnoreAsciiCase_congr same]
  cases found : colNames.findIdx? fun name => eqIgnoreAsciiCase name indexColumn with
  | none =>
      have unlisted := List.findIdx?_eq_none_iff.mp found name member
      rw [eqIgnoreAsciiCase_congr same, matches'] at unlisted
      cases unlisted
  | some index =>
      refine ⟨values.getD index .null, ?_, ?_, ?_⟩
      · rw [columnValue, position, found]
      · rw [keyValues, List.map_singleton, found, Option.getD_some]
      · rw [List.getD_eq_getElem?_getD]
        cases held : values[index]? with
        | none => exact .inr rfl
        | some value => exact .inl (List.mem_of_getElem? held)

variable {db : Database} {table : String} {colNames : List String}

omit [Runtime] in
theorem fetchByIds_eq (stored : table ∈ db.storage.tables) (ids : List Nat) :
    db.storage.fetchByIds table ids = .ok (ids.filterMap fun id =>
      (db.storage.view (table, id)).map fun row => (id, row)) := by
  obtain ⟨data, found⟩ := Option.isSome_iff_exists.mp
    (ExtTreeMap.mem_iff_isSome_getElem?.mp stored)
  simp only [StorageEngine.fetchByIds, StorageEngine.view, tablesView, found]

omit [Runtime] in
theorem scan_entries_nodup : (db.storage.scan table).Nodup :=
  List.Nodup.of_map Prod.fst (scan_nodup db.storage table)

omit [Runtime] in
/-- The fetched rows, each once. -/
theorem fetched_nodup {ids : List Nat} (nodup : ids.Nodup) :
    (ids.filterMap fun id => (db.storage.view (table, id)).map fun row => (id, row)).Nodup := by
  refine nodup.filterMap fun first second entry inFirst inSecond => ?_
  obtain ⟨row, -, rfl⟩ := Option.map_eq_some_iff.mp inFirst
  obtain ⟨row', -, same⟩ := Option.map_eq_some_iff.mp inSecond
  exact (congrArg Prod.fst same).symm

/-- An index plan keeps the rows that a sequential scan keeps, and fails on none. -/
theorem keptRows_indexLookup (stored : table ∈ db.storage.tables)
    (exact : ∀ name index, db.indexes.index? table name = some index →
      IndexExact index colNames (db.storage.contents.table table))
    (plain : ∀ name ∈ colNames, '.' ∉ name.toList)
    (noFloats : ∀ entry ∈ db.storage.scan table, ∀ value ∈ entry.2.values, value.isFloat = false)
    {whereClause : Option Expr} {indexName : String} {keys : List Value}
    (planned : planScan table whereClause db.indexes colNames = .indexLookup indexName keys) :
    ∃ rows rows', keptRows db table whereClause colNames (.indexLookup indexName keys) = .ok rows ∧
      keptRows db table whereClause colNames .fullScan = .ok rows' ∧ rows.Perm rows' := by
  obtain ⟨expr, column, literal, index, indexColumn, rfl, extracted, rfl, listed, present,
    columns, same⟩ := planScan_eq_indexLookup planned
  have resolved := columnValue_eq_keyValues plain listed same
  -- the column is listed, so the clause is decided for every row
  have decided : ∀ row : Row, ∃ keep, evalWhere expr row.values colNames = .ok keep ∧
      (keep = true → ∃ value, keyValues index.columns row.values colNames = [value] ∧
        (value ∈ row.values ∨ value = .null) ∧
        (valuesEqual value literal = true ∨ valuesEqual literal value = true)) := by
    intro row
    obtain ⟨value, found, key, held⟩ := resolved row.values
    obtain ⟨keep, kept, equal⟩ := evalWhere_of_extractEquality extracted found
    exact ⟨keep, kept, fun yes => ⟨value, columns ▸ key, held, equal yes⟩⟩
  choose keep kept keyed using decided
  have looked : db.indexes.lookup table indexName [literal] = index.ids (.ofValues [literal]) := by
    rw [IndexManager.index?] at present
    rw [IndexManager.lookup, present]
    rfl
  have listedKey : ∀ id row, db.storage.view (table, id) = some row → keep row = true →
      id ∈ index.ids (.ofValues [literal]) := by
    intro id row here yes
    obtain ⟨value, key, held, equal⟩ := keyed row yes
    rw [(exact indexName index present).mem_ids]
    refine ⟨row.values, ?_, ?_⟩
    · rw [Contents.table, StorageEngine.contents, here]
      rfl
    · have float : value.isFloat = false := by
        rcases held with member | rfl
        · exact noFloats (id, row) (StorageEngine.mem_scan.mpr here) value member
        · rfl
      have image : ComparableValue.ofValue value = ComparableValue.ofValue literal := by
        rcases equal with equal | equal
        · exact ofValue_eq_of_valuesEqual (.inl float) equal
        · exact (ofValue_eq_of_valuesEqual (.inr float) equal).symm
      rw [BTreeIndex.keyOf, key, IndexKey.ofValues, List.map_singleton, image]
      rfl
  have perm : ((index.ids (.ofValues [literal])).filterMap fun id =>
        (db.storage.view (table, id)).map fun row => (id, row)).filter (keep ·.2) |>.Perm
      ((db.storage.scan table).filter (keep ·.2)) := by
    refine (List.perm_ext_iff_of_nodup ((fetched_nodup
      ((exact indexName index present).nodup _)).filter _) (scan_entries_nodup.filter _)).mpr ?_
    rintro ⟨id, row⟩
    simp only [List.mem_filter, List.mem_filterMap, Option.map_eq_some_iff,
      StorageEngine.mem_scan, Prod.mk.injEq]
    constructor
    · rintro ⟨⟨id, -, row, here, rfl, rfl⟩, yes⟩
      exact ⟨here, yes⟩
    · rintro ⟨here, yes⟩
      exact ⟨⟨id, listedKey id row here yes, row, here, rfl, rfl⟩, yes⟩
  have filtered : ∀ entries : List (Nat × Row),
      filterRows (some expr) colNames (entries.map Prod.snd) =
        .ok ((entries.filter (keep ·.2)).map Prod.snd) := by
    intro entries
    rw [filterRows_eq fun row _ => kept row, List.filter_map]
    rfl
  refine ⟨_, _, ?_, filtered _, perm.map Prod.snd⟩
  rw [keptRows, candidateRows, looked, fetchByIds_eq stored]
  exact filtered _

/-- **An index scan keeps the rows that a sequential scan keeps.** The indexes of
the table are exact, its columns have plain names and its rows hold no
floating-point values; then the rows kept with the chosen plan are those kept
with a sequential scan, each as often. -/
theorem index_scan_keeps_same_rows (stored : table ∈ db.storage.tables)
    (exact : ∀ name index, db.indexes.index? table name = some index →
      IndexExact index colNames (db.storage.contents.table table))
    (plain : ∀ name ∈ colNames, '.' ∉ name.toList)
    (noFloats : ∀ entry ∈ db.storage.scan table, ∀ value ∈ entry.2.values, value.isFloat = false)
    (whereClause : Option Expr) :
    (∃ e, keptRows db table whereClause colNames
        (planScan table whereClause db.indexes colNames) = .error e ∧
      keptRows db table whereClause colNames .fullScan = .error e) ∨
    ∃ rows rows', keptRows db table whereClause colNames
        (planScan table whereClause db.indexes colNames) = .ok rows ∧
      keptRows db table whereClause colNames .fullScan = .ok rows' ∧ rows.Perm rows' := by
  cases planned : planScan table whereClause db.indexes colNames with
  | fullScan =>
      cases kept : keptRows db table whereClause colNames .fullScan with
      | error e => exact .inl ⟨e, rfl, rfl⟩
      | ok rows => exact .inr ⟨rows, rows, rfl, rfl, .refl _⟩
  | indexLookup indexName keys =>
      exact .inr (keptRows_indexLookup stored exact plain noFloats planned)

/-- `select` on one table keeps rows by the plan it chooses. -/
theorem select_eq {query : Query} {select : Select} {item : TableWithJoins}
    {rest : List TableWithJoins} (body : query.body = .select select)
    (relations : select.relations = item :: rest) (single : item.joins = []) :
    MoodengSQL.select db query = (do
      let schema ← db.catalog.getTable item.relation.name
      let rows ← keptRows db item.relation.name select.selection schema.colNames
        (planScan item.relation.name select.selection db.indexes schema.colNames)
      finalizeSelect query select
        (if hasWildcard select.projection then schema.colNames
          else selectItemsToColumns select.projection) rows schema.colNames) := by
  simp only [MoodengSQL.select, body, relations, single, ne_eq, not_true_eq_false, if_false,
    keptRows, bind_assoc]

end Scans

/-- `(2 = ID)`. -/
def twoIsId : Expr := .nested (.binaryOp (.value (.number "2")) .eq (.identifier "ID"))

/-- A lookup in the index of the primary key. -/
theorem index_scan_keeps_same_rows_key : ∃ s : Executor,
    @runStatements Runtime.reference ddlOutside .fresh [createT, insertT [1, 2]] = some s ∧
    (∃ indexName, @planScan Runtime.reference "t" (some twoIsId) s.indexes ["id"] =
      .indexLookup indexName [.int8 2]) ∧
    ∃ rows rows', @keptRows Runtime.reference s.toDatabase "t" (some twoIsId) ["id"]
        (@planScan Runtime.reference "t" (some twoIsId) s.indexes ["id"]) = .ok rows ∧
      @keptRows Runtime.reference s.toDatabase "t" (some twoIsId) ["id"] .fullScan = .ok rows' ∧
      rows.Perm rows' := by
  let _ := Runtime.reference
  obtain ⟨s, ran⟩ : ∃ s, runStatements ddlOutside .fresh [createT, insertT [1, 2]] = some s :=
    Option.isSome_iff_exists.mp (by decide +kernel)
  have consistent := (Run.of_runStatements ran).consistent.1
  have computed : (runStatements ddlOutside .fresh [createT, insertT [1, 2]]).map (fun s =>
      (s.catalog["t"]?.map TableSchema.colNames, s.storage.scan "t",
        planScan "t" (some twoIsId) s.indexes ["id"])) =
      some (some ["id"], [(1, ⟨[.int4 1], 1⟩), (2, ⟨[.int4 2], 1⟩)],
        .indexLookup "t_pkey" [.int8 2]) := by
    decide +kernel
  rw [ran] at computed
  simp only [Option.map_some, Option.some.injEq, Prod.mk.injEq] at computed
  obtain ⟨columns, scanned, planned⟩ := computed
  obtain ⟨schema, known, names⟩ := Option.map_eq_some_iff.mp columns
  have stored : "t" ∈ s.storage.tables := by
    have listed : (1, Row.mk [.int4 1] 1) ∈ s.storage.scan "t" := by
      rw [scanned]
      exact List.mem_cons_self
    exact StorageEngine.mem_tables_of_view (StorageEngine.mem_scan.mp listed)
  have noFloats : ∀ entry ∈ s.storage.scan "t", ∀ value ∈ entry.2.values,
      value.isFloat = false := by
    rw [scanned]
    decide
  refine ⟨s, ran, ⟨_, planned⟩, ?_⟩
  rcases index_scan_keeps_same_rows stored (fun name index present =>
      names ▸ consistent.agree known present) (by decide) noFloats (some twoIsId) with
    ⟨e, -, failed⟩ | kept
  · have filtered : filterRows (some twoIsId) ["id"] [⟨[.int4 1], 1⟩, ⟨[.int4 2], 1⟩] =
        .ok [⟨[.int4 2], 1⟩] := by
      decide +kernel
    change filterRows (some twoIsId) ["id"] ((s.storage.scan "t").map Prod.snd) = .error e at failed
    rw [scanned] at failed
    cases filtered.symm.trans failed
  · exact kept

end MoodengSQL
