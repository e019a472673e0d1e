import MoodengSQL.Reading.IndexScan

/-!
# Grouping

`apply_group_by` replaces the rows by one row for each group, whose cells follow
the select list. `project_rows` then evaluates the select list again, on these
rows and under the names of the table's columns: `COUNT(*)` of one row is one, and
a column is looked for where the table has it.
-/

namespace MoodengSQL

open Foundation.Effect

/-- What a grouped select list shows in one place: a column, or `COUNT(*)` under
the name it is written with. -/
inductive GroupedCell where
  | column (name : String)
  | count (function : String)
  deriving DecidableEq, Repr

/-- The expression of a cell. -/
def GroupedCell.expr : GroupedCell → Expr
  | .column name => .identifier name
  | .count function => .functionArgs function .wildcard

/-- The expression of a select item. -/
def SelectItem.expr? : SelectItem → Option Expr
  | .unnamedExpr expr _ => some expr
  | .exprWithAlias expr _ => some expr
  | _ => none

/-- The position `column_value` finds a column at. -/
def columnPosition (colNames : List String) (column : String) : Nat :=
  colNames.findIdx fun name =>
    eqIgnoreAsciiCase name column || eqIgnoreAsciiCase name (bareName column)

/-- The value a row has at the position of a column. -/
def valueAt (colNames : List String) (row : List Value) (column : String) : Value :=
  row.getD (columnPosition colNames column) .null

/-- The cell `apply_group_by` computes for a group. -/
def cellValue (colNames : List String) (members : List Row) : GroupedCell → Value
  | .column name => valueAt colNames ((members.head?.map Row.values).getD []) name
  | .count _ => .int8 (Int64.ofNat members.length)

/-- The row `apply_group_by` computes for a group. -/
def groupedRow (cells : List GroupedCell) (colNames : List String) (members : List Row) : Row :=
  Row.new (cells.map (cellValue colNames members))

/-- The cell `project_rows` puts in its place. -/
def reprojectedCell (colNames : List String) (row : Row) : GroupedCell → Value
  | .column name => valueAt colNames row.values name
  | .count _ => .int8 1

def reprojected (cells : List GroupedCell) (colNames : List String) (row : Row) : Row :=
  Row.new (cells.map (reprojectedCell colNames row))

theorem columnValue_of_known {colNames : List String} {column : String}
    (known : columnPosition colNames column < colNames.length) (row : List Value) :
    columnValue column row colNames = .ok (valueAt colNames row column) := by
  unfold columnValue
  rw [List.findIdx?_eq_guard_findIdx_lt]
  unfold columnPosition at known
  simp only [Option.guard, known, decide_true, if_true]
  rfl

/-- The values of a map, with their keys forgotten. -/
theorem Map.values_eq {ν : Type} (map : Map String ν) :
    map.values = map.toList.map Prod.snd := by
  obtain ⟨inner⟩ := map
  induction inner using Std.ExtDTreeMap.inductionOn with
  | mk tree =>
      change tree.inner.values =
        (Std.DTreeMap.Internal.Impl.Const.toList tree.inner).map Prod.snd
      rw [Std.DTreeMap.Internal.Impl.values_eq_map_snd,
        Std.DTreeMap.Internal.Impl.Const.toList_eq_toListModel_map, List.map_map]
      rfl

section Groups

variable [Runtime] {g : List String} {colNames : List String}

/-- The printed key of a row. -/
def keyText (g colNames : List String) (row : Row) : String :=
  String.intercalate "\x1f"
    (g.map fun name => (valueAt colNames row.values name).toDisplayString)

theorem groupKey_of_known (known : ∀ name ∈ g, columnPosition colNames name < colNames.length)
    (row : Row) : groupKey (g.map .identifier) row colNames = .ok (keyText g colNames row) := by
  have values : (g.map Expr.identifier).mapM (fun expr => evalExpr expr row.values colNames) =
      .ok (g.map (valueAt colNames row.values)) := by
    rw [except_mapM_eq_ok, List.forall₂_map_left_iff, List.forall₂_map_right_iff,
      List.forall₂_same]
    exact fun name member => columnValue_of_known (known name member) row.values
  simp only [groupKey, values, bind, Except.bind, List.map_map, Function.comp_def, keyText]

/-- **The grouping loop** appends to each group the rows with its key, in order. -/
theorem groupRows_of_keys {exprs : List Expr} {key : Row → String} (groups : Map String (List Row))
    {rows : List Row} (keyed : ∀ row ∈ rows, groupKey exprs row colNames = .ok (key row)) :
    ∃ final, groupRows exprs colNames groups rows = .ok final ∧
      ∀ k, final[k]? =
        if rows.filter (key · = k) = [] then groups[k]?
        else some (groups.getD k [] ++ rows.filter (key · = k)) := by
  induction rows generalizing groups with
  | nil => exact ⟨groups, rfl, fun k => rfl⟩
  | cons row rest ih =>
      obtain ⟨first, later⟩ := List.forall_mem_cons.mp keyed
      obtain ⟨final, ran, grouped⟩ := ih
        (groups.insert (key row) (groups.getD (key row) [] ++ [row])) later
      refine ⟨final, ?_, fun k => ?_⟩
      · simp only [groupRows, first, bind, Except.bind, ran]
      · rw [grouped k]
        by_cases same : key row = k
        · subst same
          simp only [Std.ExtTreeMap.getElem?_insert_self, Std.ExtTreeMap.getD_insert_self,
            List.filter_cons, decide_true, if_true, reduceCtorEq, if_false]
          split <;> rename_i none
          · rw [none]
          · rw [List.append_assoc, List.singleton_append]
        · have differ : ¬compare (key row) k = .eq :=
            fun equal => same (compare_eq_iff_eq.mp equal)
          simp only [Std.ExtTreeMap.getElem?_insert, Std.ExtTreeMap.getD_insert, differ, if_false,
            List.filter_cons, same, decide_false, Bool.false_eq_true]

/-- The groups of rows under known columns. -/
theorem groupRows_ok (known : ∀ name ∈ g, columnPosition colNames name < colNames.length)
    (groups : Map String (List Row)) (rows : List Row) :
    ∃ final, groupRows (g.map .identifier) colNames groups rows = .ok final ∧
      ∀ key, final[key]? =
        if rows.filter (keyText g colNames · = key) = [] then groups[key]?
        else some (groups.getD key [] ++ rows.filter (keyText g colNames · = key)) :=
  groupRows_of_keys groups fun row _ => groupKey_of_known known row

/-- The groups of rows: the classes of equal printed keys, or all rows when
there is no `GROUP BY`. -/
structure IsGrouping (g colNames : List String) (rows : List Row) (groups : List (List Row)) :
    Prop where
  whole : g = [] → groups = [rows]
  classes : g ≠ [] → ∀ members, members ∈ groups ↔
    ∃ row ∈ rows, members = rows.filter (keyText g colNames · = keyText g colNames row)
  nodup : groups.Nodup

/-- A `SELECT` of these cells, with `COUNT(*)` among them, grouped by these columns
of the table. -/
structure SelectsGroups (select : Select) (g : List String) (cells : List GroupedCell)
    (colNames : List String) : Prop where
  keys : groupByExprs select.groupBy = g.map .identifier
  items : select.projection.map SelectItem.expr? = cells.map fun cell => some cell.expr
  columns : ∀ name, .column name ∈ cells → name ∈ g
  counts : ∀ function, .count function ∈ cells → Runtime.toUppercase function = "COUNT"
  counted : ∃ function, .count function ∈ cells
  known : ∀ name ∈ g, columnPosition colNames name < colNames.length

/-- The grouped rows a statement returns when nothing changes them any more:
sorted, then limited. -/
def orderedRows (query : Query) (rows : List Row) (colNames : List String) :
    Except Failure (List Row) := do
  let sorted ← match query.orderBy with
    | some keys => sortRows rows keys colNames
    | none => .ok rows
  applyLimitOffset sorted query.limit query.offset colNames

/-- **Aggregates reach the client**: `apply_group_by` computes one row for each
group, with the number of its members in the `COUNT(*)` cell, and whatever the
`ORDER BY`, `LIMIT` and `OFFSET`, `finalize_select` returns these rows. -/
def AggregatesReach (select : Select) (g : List String) (cells : List GroupedCell)
    (colNames : List String) (rows : List Row) : Prop :=
  ∃ columns groups, IsGrouping g colNames rows groups ∧
    (∀ members ∈ groups, (Int64.ofNat members.length).toInt = members.length) ∧
    applyGroupBy select.projection (groupByExprs select.groupBy) rows colNames =
      .ok (columns, groups.map (groupedRow cells colNames)) ∧
    ∀ query outputCols, finalizeSelect query select outputCols rows colNames =
      (orderedRows query (groups.map (groupedRow cells colNames)) colNames).map
        (QueryResult.select columns)

/-- No two rows share a group, with no `GROUP BY` there is a row, and on every row
the cell that stands where the table has a selected column is that column's value. -/
structure CellsStay (g : List String) (cells : List GroupedCell) (colNames : List String)
    (rows : List Row) : Prop where
  alone : (rows.map fun row => groupKey (g.map .identifier) row colNames).Nodup
  inhabited : g = [] → rows ≠ []
  unmoved : ∀ row ∈ rows, ∀ name, .column name ∈ cells →
    valueAt colNames (cells.map (cellValue colNames [row])) name =
      valueAt colNames row.values name

variable {select : Select} {cells : List GroupedCell} {rows : List Row}

omit [Runtime] in
theorem hasWildcard_eq_false {items : List SelectItem}
    (exprs : items.map SelectItem.expr? = cells.map fun cell => some cell.expr) :
    hasWildcard items = false := by
  rw [hasWildcard, List.any_eq_false]
  intro item member wildcard
  have listed : item.expr? ∈ cells.map fun cell => some cell.expr :=
    exprs ▸ List.mem_map_of_mem member
  cases item <;> simp_all [SelectItem.expr?]

omit [Runtime] in
/-- The items show the cells, one by one. -/
theorem items_forall₂ {items : List SelectItem}
    (exprs : items.map SelectItem.expr? = cells.map fun cell => some cell.expr) :
    List.Forall₂ (fun item cell => cell ∈ cells ∧ item.expr? = some (GroupedCell.expr cell))
      items cells := by
  have pairs : List.Forall₂ (fun cell item => item.expr? = some (GroupedCell.expr cell))
      cells items := by
    rw [← List.forall₂_eq_eq_eq, List.forall₂_map_left_iff, List.forall₂_map_right_iff] at exprs
    exact exprs.flip
  exact ((List.forall₂_and_left _ _).mpr ⟨fun cell member => member, pairs⟩).flip

namespace SelectsGroups

variable (groups : SelectsGroups select g cells colNames)

include groups

theorem cell_known {name : String} (member : .column name ∈ cells) :
    columnPosition colNames name < colNames.length :=
  groups.known name (groups.columns name member)

omit groups in
theorem groupValues_eq (items : List SelectItem) (members : List Row) :
    groupValues items members colNames =
      (items.filterMap SelectItem.expr?).mapM fun expr =>
        evalGroupedExpr expr members colNames := by
  have same : (fun item : SelectItem => match item with
      | .unnamedExpr expr _ => some expr
      | .exprWithAlias expr _ => some expr
      | _ => none) = SelectItem.expr? := by
    funext item
    cases item <;> rfl
  rw [← same]
  rfl

theorem count_item : ∃ item ∈ select.projection, ∃ function,
    item.expr? = some (.functionArgs function .wildcard) ∧
      Runtime.toUppercase function = "COUNT" := by
  obtain ⟨function, counted⟩ := groups.counted
  have shown : some (GroupedCell.count function).expr ∈ select.projection.map SelectItem.expr? :=
    groups.items ▸ List.mem_map.mpr ⟨_, counted, rfl⟩
  obtain ⟨item, inside, shown⟩ := List.mem_map.mp shown
  exact ⟨item, inside, function, shown, groups.counts function counted⟩

/-- The values of a group. -/
theorem groupValues_ok (members : List Row) :
    groupValues select.projection members colNames =
      .ok (cells.map (cellValue colNames members)) := by
  have exprs : select.projection.filterMap SelectItem.expr? = cells.map GroupedCell.expr := by
    have mapped := congrArg (List.filterMap id) groups.items
    rw [List.filterMap_map, List.filterMap_map] at mapped
    exact mapped.trans (congrFun (List.filterMap_eq_map (f := GroupedCell.expr)) cells)
  rw [groupValues_eq, exprs, except_mapM_eq_ok, List.forall₂_map_left_iff,
    List.forall₂_map_right_iff, List.forall₂_same]
  intro cell member
  cases cell with
  | column name => exact columnValue_of_known (groups.cell_known member) _
  | count function =>
      have counts := groups.counts function member
      simp only [GroupedCell.expr, evalGroupedExpr, isAggExpr, counts, evalAggregate,
        List.mem_cons, true_or, decide_true, if_true, cellValue]

/-- The projection of a grouped row. -/
theorem projectRows_ok (rows : List Row) :
    projectRows select.projection rows colNames = .ok (rows.map (reprojected cells colNames)) := by
  have plain := hasWildcard_eq_false groups.items
  rw [projectRows, except_mapM_eq_ok, List.forall₂_map_right_iff, List.forall₂_same]
  intro row _
  simp only [plain, Bool.false_eq_true, if_false]
  refine congrArg (Except.map Row.new) (except_mapM_eq_ok.mpr ?_)
  rw [List.forall₂_map_right_iff]
  refine (items_forall₂ groups.items).imp ?_
  rintro item cell ⟨member, shown⟩
  have evaluated : evalExpr cell.expr row.values colNames =
      .ok (reprojectedCell colNames row cell) := by
    cases cell with
    | column name => exact columnValue_of_known (groups.cell_known member) _
    | count function =>
        have counts := groups.counts function member
        simp only [GroupedCell.expr, evalExpr, evalExprWithExcluded, counts, ne_eq, reduceCtorEq,
          not_false_eq_true, true_and, if_true, reprojectedCell]
  cases item with
  | unnamedExpr expr display => exact Option.some.inj shown ▸ evaluated
  | exprWithAlias expr name => exact Option.some.inj shown ▸ evaluated
  | wildcard => cases shown
  | other => cases shown

omit [Runtime] in
/-- The name a projected item has in the result. -/
def SelectItem.columnName : SelectItem → Option String
  | .exprWithAlias _ name => some name
  | .unnamedExpr _ display => some display
  | _ => none

/-- A `COUNT(*)` makes the query an aggregate one. -/
theorem aggregates : isAggregateQuery select.projection = true := by
  obtain ⟨item, inside, function, shown, counts⟩ := groups.count_item
  refine List.any_eq_true.mpr ⟨item, inside, ?_⟩
  have aggregate : isAggExpr (.functionArgs function .wildcard) = true := by
    simp only [isAggExpr, counts, List.mem_cons, true_or, decide_true]
  cases item with
  | unnamedExpr expr display => exact Option.some.inj shown ▸ aggregate
  | exprWithAlias expr name => exact Option.some.inj shown ▸ aggregate
  | wildcard => cases shown
  | other => cases shown

/-- What `apply_group_by` computes. -/
theorem applyGroupBy_ok (rows : List Row) :
    ∃ (columns : List String) (classes : List (List Row)), columns ≠ [] ∧
      (∀ members, members ∈ classes ↔
        ∃ row ∈ rows, members = rows.filter (keyText g colNames · = keyText g colNames row)) ∧
      classes.Nodup ∧
      applyGroupBy select.projection (groupByExprs select.groupBy) rows colNames =
        .ok (columns, classes.map (groupedRow cells colNames)) := by
  obtain ⟨final, ran, found⟩ := groupRows_ok groups.known ∅ rows
  have entries : ∀ key members, final[key]? = some members ↔
      rows.filter (keyText g colNames · = key) ≠ [] ∧
        members = rows.filter (keyText g colNames · = key) := by
    intro key members
    rw [found key]
    split
    · rename_i none
      simp only [Std.ExtTreeMap.getElem?_empty, reduceCtorEq, ne_eq, none, not_true_eq_false,
        false_and]
    · rename_i inhabited
      rw [Std.ExtTreeMap.getD_empty, List.nil_append, Option.some.injEq]
      exact ⟨fun same => ⟨inhabited, same.symm⟩, fun same => same.2.symm⟩
  have ordered := Runtime.hashOrder.perm "groups" final.values
  have listed : ∀ {key members}, (key, members) ∈ final.toList ↔
      rows.filter (keyText g colNames · = key) ≠ [] ∧
        members = rows.filter (keyText g colNames · = key) := by
    intro key members
    rw [Std.ExtTreeMap.mem_toList_iff_getElem?_eq_some, entries]
  have columnsShown : select.projection.filterMap SelectItem.columnName ≠ [] := by
    obtain ⟨item, inside, function, shown, -⟩ := groups.count_item
    intro none
    have hidden := List.filterMap_eq_nil_iff.mp none item inside
    cases item with
    | unnamedExpr expr display => cases hidden
    | exprWithAlias expr name => cases hidden
    | wildcard => cases shown
    | other => cases shown
  refine ⟨_, Runtime.hashOrder.order "groups" final.values, columnsShown, fun members => ?_, ?_, ?_⟩
  · rw [ordered.mem_iff, Map.values_eq, List.mem_map]
    constructor
    · rintro ⟨⟨key, _⟩, member, rfl⟩
      obtain ⟨inhabited, rfl⟩ := listed.mp member
      obtain ⟨row, inside⟩ := List.exists_mem_of_ne_nil _ inhabited
      obtain ⟨stored, same⟩ := List.mem_filter.mp inside
      exact ⟨row, stored, by rw [of_decide_eq_true same]⟩
    · rintro ⟨row, stored, rfl⟩
      refine ⟨(keyText g colNames row, _), listed.mpr ⟨?_, rfl⟩, rfl⟩
      exact List.ne_nil_of_mem (List.mem_filter.mpr ⟨stored, decide_eq_true rfl⟩)
  · rw [ordered.nodup_iff, Map.values_eq, List.Nodup, List.pairwise_map]
    refine Std.ExtTreeMap.distinct_keys_toList.imp_of_mem ?_
    rintro ⟨first, _⟩ ⟨second, _⟩ firstIn secondIn differ same
    obtain ⟨inhabited, rfl⟩ := listed.mp firstIn
    obtain ⟨-, rfl⟩ := listed.mp secondIn
    obtain ⟨row, inside⟩ := List.exists_mem_of_ne_nil _ inhabited
    have inSecond : row ∈ rows.filter (keyText g colNames · = second) := by
      dsimp only at same
      rwa [← same]
    have firstKey := of_decide_eq_true (List.mem_filter.mp inside).2
    have secondKey := of_decide_eq_true (List.mem_filter.mp inSecond).2
    exact differ (Std.compare_eq_iff_eq.mpr (firstKey.symm.trans secondKey))
  · have plain := hasWildcard_eq_false groups.items
    unfold applyGroupBy
    rw [groups.keys, groups.aggregates, if_neg fun early => (by cases early.2)]
    refine except_bind_eq_ok.mpr ⟨final, ran, except_bind_eq_ok.mpr
      ⟨(Runtime.hashOrder.order "groups" final.values).map (groupedRow cells colNames),
        except_mapM_eq_ok.mpr ?_, ?_⟩⟩
    · rw [List.forall₂_map_right_iff, List.forall₂_same]
      intro members _
      simp only [plain, groups.groupValues_ok]
      rfl
    · simp only [plain]
      rfl

/-- `finalize_select` projects the grouped rows once more. -/
theorem finalizeSelect_eq {rows grouped : List Row} {columns : List String}
    (columnsShown : columns ≠ [])
    (applied : applyGroupBy select.projection (groupByExprs select.groupBy) rows colNames =
      .ok (columns, grouped)) (query : Query) (outputCols : List String) :
    finalizeSelect query select outputCols rows colNames =
      (orderedRows query grouped colNames).map fun shown =>
        QueryResult.select columns (shown.map (reprojected cells colNames)) := by
  unfold finalizeSelect orderedRows
  simp only [groups.aggregates, Bool.not_true, Bool.false_eq_true, and_false, if_false, bind,
    Except.bind, applied, columnsShown]
  cases query.orderBy with
  | none =>
      dsimp only
      cases applyLimitOffset grouped query.limit query.offset colNames with
      | error failure => rfl
      | ok shown => simp only [groups.projectRows_ok shown, Except.map]
  | some keys =>
      dsimp only
      cases sortRows grouped keys colNames with
      | error failure => rfl
      | ok sorted =>
          dsimp only
          cases applyLimitOffset sorted query.limit query.offset colNames with
          | error failure => rfl
          | ok shown => simp only [groups.projectRows_ok shown, Except.map]

end SelectsGroups

/-- The computed classes are the groups, unless there is neither a `GROUP BY` nor a row. -/
theorem isGrouping_iff {classes : List (List Row)}
    (mem : ∀ members, members ∈ classes ↔
      ∃ row ∈ rows, members = rows.filter (keyText g colNames · = keyText g colNames row))
    (nodup : classes.Nodup) :
    IsGrouping g colNames rows classes ↔ (g = [] → rows ≠ []) := by
  constructor
  · rintro grouping rfl rfl
    have listed : [] ∈ classes := grouping.whole rfl ▸ List.mem_singleton_self []
    obtain ⟨row, stored, -⟩ := (mem []).mp listed
    exact List.not_mem_nil stored
  · intro inhabited
    refine ⟨fun empty => ?_, fun _ => mem, nodup⟩
    subst empty
    have all : ∀ row, rows.filter (keyText [] colNames · = keyText [] colNames row) = rows :=
      fun row => List.filter_eq_self.mpr fun other _ => decide_eq_true rfl
    obtain ⟨row, stored⟩ := List.exists_mem_of_ne_nil _ (inhabited rfl)
    have listed : rows ∈ classes := (mem rows).mpr ⟨row, stored, (all row).symm⟩
    refine (List.perm_ext_iff_of_nodup nodup (List.nodup_singleton rows)).mpr (fun members => ?_)
      |>.eq_singleton
    rw [List.mem_singleton]
    constructor
    · intro member
      obtain ⟨other, -, same⟩ := (mem members).mp member
      rw [same, all]
    · rintro rfl
      exact listed

theorem applyLimitOffset_sublist {rows shown : List Row} {limit offset : Option Expr}
    (limited : applyLimitOffset rows limit offset colNames = .ok shown) : shown.Sublist rows := by
  have dropped : ∀ off : Nat, (rows.drop off).Sublist rows := fun off => List.drop_sublist off rows
  have taken : ∀ off n : Nat, ((rows.drop off).take n).Sublist rows := fun off n =>
    (List.take_sublist n _).trans (dropped off)
  unfold applyLimitOffset at limited
  -- both values are fetched by a match of their own before the rows are sliced
  cases offset <;> obtain ⟨off, -, limited⟩ := except_bind_eq_ok.mp limited <;> cases limit <;>
    obtain ⟨lim, -, limited⟩ := except_bind_eq_ok.mp limited <;>
    cases lim <;> first
      | exact Except.ok.inj limited ▸ dropped off
      | exact Except.ok.inj limited ▸ taken off _

theorem insertSorted_perm {orderBy : List OrderByExpr} {row : Row} {rows sorted : List Row}
    (ran : insertSorted orderBy colNames row rows = .ok sorted) : sorted.Perm (row :: rows) := by
  induction rows generalizing sorted with
  | nil =>
      cases ran
      exact .refl _
  | cons other rest ih =>
      obtain ⟨ord, -, placed⟩ := except_bind_eq_ok.mp ran
      split at placed
      · cases placed
        exact .refl _
      · cases inserted : insertSorted orderBy colNames row rest with
        | error failure =>
            rw [inserted] at placed
            cases placed
        | ok later =>
            rw [inserted] at placed
            cases placed
            exact ((ih inserted).cons other).trans (.swap row other rest)

/-- A sort that ends well keeps every row. -/
theorem sortRows_perm {orderBy : List OrderByExpr} {rows sorted : List Row}
    (ran : sortRows rows orderBy colNames = .ok sorted) : sorted.Perm rows := by
  induction rows generalizing sorted with
  | nil =>
      cases ran
      exact .refl _
  | cons row rest ih =>
      obtain ⟨later, sortedLater, inserted⟩ := except_bind_eq_ok.mp ran
      exact (insertSorted_perm inserted).trans ((ih sortedLater).cons row)

theorem mem_orderedRows {query : Query} {rows shown : List Row}
    (ordered : orderedRows query rows colNames = .ok shown) {row : Row} (member : row ∈ shown) :
    row ∈ rows := by
  unfold orderedRows at ordered
  cases keys : query.orderBy with
  | none =>
      rw [keys] at ordered
      exact (applyLimitOffset_sublist ordered).subset member
  | some keys' =>
      rw [keys] at ordered
      obtain ⟨sorted, sorts, limited⟩ := except_bind_eq_ok.mp ordered
      exact (sortRows_perm sorts).mem_iff.mp ((applyLimitOffset_sublist limited).subset member)

/-- A plain query returns the grouped rows as they are. -/
theorem orderedRows_plain (body : SetExpr) (rows : List Row) :
    orderedRows ⟨body, none, none, none⟩ rows colNames = .ok rows := rfl

/-- The rows of the group of a row. -/
theorem mem_group {row : Row} (stored : row ∈ rows) :
    row ∈ rows.filter (keyText g colNames · = keyText g colNames row) :=
  List.mem_filter.mpr ⟨stored, decide_eq_true rfl⟩

theorem IsGrouping.mem_group {classes : List (List Row)}
    (grouping : IsGrouping g colNames rows classes) {row : Row} (stored : row ∈ rows) :
    rows.filter (keyText g colNames · = keyText g colNames row) ∈ classes := by
  by_cases empty : g = []
  · subst empty
    rw [grouping.whole rfl, List.mem_singleton]
    exact List.filter_eq_self.mpr fun other _ => decide_eq_true rfl
  · exact (grouping.classes empty _).mpr ⟨row, stored, rfl⟩

omit [Runtime] in
/-- Keys are distinct exactly when each of them belongs to one entry. -/
theorem nodup_map_iff {α β : Type} [DecidableEq β] (key : α → β) (entries : List α) :
    (entries.map key).Nodup ↔
      ∀ entry ∈ entries, entries.filter (key · = key entry) = [entry] := by
  have count : ∀ k, (entries.map key).count k = (entries.filter (key · = k)).length := by
    intro k
    rw [List.count, List.countP_map, List.countP_eq_length_filter]
    rfl
  rw [List.nodup_iff_count_le_one]
  constructor
  · intro once entry member
    have inside : entry ∈ entries.filter (key · = key entry) :=
      List.mem_filter.mpr ⟨member, decide_eq_true rfl⟩
    have length : (entries.filter (key · = key entry)).length = 1 :=
      le_antisymm (count _ ▸ once (key entry)) (List.length_pos_of_mem inside)
    obtain ⟨other, single⟩ := List.length_eq_one_iff.mp length
    rw [single, List.mem_singleton] at inside
    rw [single, inside]
  · intro single k
    rw [count]
    by_cases none : entries.filter (key · = k) = []
    · rw [none]
      exact Nat.zero_le 1
    · obtain ⟨entry, inside⟩ := List.exists_mem_of_ne_nil _ none
      obtain ⟨member, same⟩ := List.mem_filter.mp inside
      have one := single entry member
      rw [of_decide_eq_true same] at one
      rw [one, List.length_singleton]

/-- **Aggregates reach the client exactly when the cells stay.** -/
theorem aggregates_reach_iff (groups : SelectsGroups select g cells colNames)
    (rows : List Row) :
    AggregatesReach select g cells colNames rows ↔ CellsStay g cells colNames rows := by
  have keys : (rows.map fun row => groupKey (g.map .identifier) row colNames).Nodup ↔
      (rows.map (keyText g colNames)).Nodup := by
    simp only [groupKey_of_known groups.known]
    have injective : Function.Injective (Except.ok : String → Except Failure String) :=
      fun _ _ => Except.ok.inj
    rw [← List.nodup_map_iff injective, List.map_map]
    rfl
  obtain ⟨columns, classes, columnsShown, mem, nodup, applied⟩ := groups.applyGroupBy_ok rows
  have finalized := groups.finalizeSelect_eq columnsShown applied
  constructor
  · rintro ⟨columns', classes', grouping, exact', applied', reached⟩
    obtain ⟨rfl, same⟩ := Prod.mk.inj (Except.ok.inj (applied.symm.trans applied'))
    rw [same] at finalized
    -- the query without `ORDER BY`, `LIMIT` and `OFFSET` returns every grouped row
    have plain := (finalized ⟨.other, none, none, none⟩ []).symm.trans
      (reached ⟨.other, none, none, none⟩ [])
    simp only [orderedRows_plain, Except.map, Except.ok.injEq] at plain
    have fixed : ∀ members ∈ classes', ∀ cell ∈ cells,
        reprojectedCell colNames (groupedRow cells colNames members) cell =
          cellValue colNames members cell := by
      have returned := congrArg QueryResult.rows plain
      simp only [QueryResult.select, List.map_map, List.map_inj_left, Function.comp_def]
        at returned
      intro members member
      exact List.map_inj_left.mp (congrArg Row.values (returned members member))
    have length : ∀ members ∈ classes', members.length = 1 := by
      intro members member
      obtain ⟨function, counted⟩ := groups.counted
      have one : (1 : Int64) = Int64.ofNat members.length :=
        Value.int8.inj (fixed members member _ counted)
      have exactly := exact' members member
      rw [← one] at exactly
      exact (Int.ofNat.inj exactly).symm
    have single : ∀ row ∈ rows,
        rows.filter (keyText g colNames · = keyText g colNames row) = [row] := by
      intro row stored
      obtain ⟨other, single⟩ :=
        List.length_eq_one_iff.mp (length _ (grouping.mem_group stored))
      have inside : row ∈ rows.filter (keyText g colNames · = keyText g colNames row) :=
        mem_group stored
      rw [single, List.mem_singleton] at inside
      rw [single, inside]
    refine ⟨keys.mpr ((nodup_map_iff _ rows).mpr single), fun empty none => ?_, ?_⟩
    · have listed : rows ∈ classes' := grouping.whole empty ▸ List.mem_singleton_self rows
      exact absurd (length rows listed) (by rw [none]; decide)
    · intro row stored name member
      have listed := grouping.mem_group stored
      rw [single row stored] at listed
      exact fixed [row] listed (.column name) member
  · intro stay
    have grouping := (isGrouping_iff mem nodup).mpr stay.inhabited
    have single : ∀ members ∈ classes, ∃ row ∈ rows, members = [row] := by
      intro members member
      obtain ⟨row, stored, rfl⟩ := (mem members).mp member
      exact ⟨row, stored, (nodup_map_iff _ rows).mp (keys.mp stay.alone) row stored⟩
    have fixed : ∀ row ∈ classes.map (groupedRow cells colNames),
        reprojected cells colNames row = row := by
      intro row member
      obtain ⟨members, inside, rfl⟩ := List.mem_map.mp member
      obtain ⟨row, stored, rfl⟩ := single members inside
      refine congrArg Row.new (List.map_congr_left fun cell member => ?_)
      cases cell with
      | column name => exact stay.unmoved row stored name member
      | count function => rfl
    refine ⟨columns, classes, grouping, fun members member => ?_, applied, fun query outputCols => ?_⟩
    · obtain ⟨row, -, rfl⟩ := single members member
      rfl
    · rw [finalized]
      cases ordered : orderedRows query (classes.map (groupedRow cells colNames)) colNames with
      | error failure => rfl
      | ok shown =>
          have unchanged : shown.map (reprojected cells colNames) = shown :=
            (List.map_congr_left fun row member =>
              fixed row (mem_orderedRows ordered member)).trans (List.map_id shown)
          simp only [Except.map, unchanged]

end Groups

/-- `SELECT dept, COUNT(*) … GROUP BY dept`. -/
def countByDept : Select :=
  ⟨[.unnamedExpr (.identifier "dept") "dept",
    .unnamedExpr (.functionArgs "COUNT" .wildcard) "COUNT(*)"], [], none,
    .expressions [.identifier "dept"]⟩

/-- Rows of a table of departments and names. -/
def staff (entries : List (String × String)) : List Row :=
  entries.map fun entry => Row.new [.text entry.1, .text entry.2]

theorem countByDept_selectsGroups :
    @SelectsGroups Runtime.reference countByDept ["dept"] [.column "dept", .count "COUNT"]
      ["dept", "name"] := by
  let _ := Runtime.reference
  refine ⟨rfl, rfl, ?_, ?_, ⟨"COUNT", by decide⟩, by decide⟩
  · intro name member
    simpa using member
  · intro function member
    have written : function = "COUNT" := by simpa using member
    subst written
    decide +kernel

/-- A department with one member. -/
theorem aggregates_reach_iff_one :
    @AggregatesReach Runtime.reference countByDept ["dept"] [.column "dept", .count "COUNT"]
      ["dept", "name"] (staff [("eng", "a")]) := by
  let _ := Runtime.reference
  refine (aggregates_reach_iff countByDept_selectsGroups _).mpr ⟨by decide +kernel, nofun, ?_⟩
  intro row stored name member
  rw [List.mem_singleton.mp stored]
  have only : name = "dept" := by simpa using member
  subst only
  decide

/-- Two members of one department are counted as two and returned as one. -/
theorem count_overwritten :
    @applyGroupBy Runtime.reference countByDept.projection [.identifier "dept"]
        (staff [("eng", "a"), ("eng", "b")]) ["dept", "name"] =
      .ok (["dept", "COUNT(*)"], [Row.new [.text "eng", .int8 2]]) ∧
    @finalizeSelect Runtime.reference ⟨.select countByDept, none, none, none⟩ countByDept []
        (staff [("eng", "a"), ("eng", "b")]) ["dept", "name"] =
      .ok (QueryResult.select ["dept", "COUNT(*)"] [Row.new [.text "eng", .int8 1]]) ∧
    ¬ @AggregatesReach Runtime.reference countByDept ["dept"] [.column "dept", .count "COUNT"]
      ["dept", "name"] (staff [("eng", "a"), ("eng", "b")]) := by
  let _ := Runtime.reference
  have applied : applyGroupBy countByDept.projection [.identifier "dept"]
        (staff [("eng", "a"), ("eng", "b")]) ["dept", "name"] =
      .ok (["dept", "COUNT(*)"], [Row.new [.text "eng", .int8 2]]) := by
    decide +kernel
  have returned : finalizeSelect ⟨.select countByDept, none, none, none⟩ countByDept []
        (staff [("eng", "a"), ("eng", "b")]) ["dept", "name"] =
      .ok (QueryResult.select ["dept", "COUNT(*)"] [Row.new [.text "eng", .int8 1]]) := by
    decide +kernel
  refine ⟨applied, returned, ?_⟩
  rintro ⟨columns, classes, -, -, applied', reached⟩
  obtain ⟨rfl, rows⟩ := Prod.mk.inj (Except.ok.inj (applied.symm.trans applied'))
  have shown := returned.symm.trans (reached _ _)
  rw [← rows, orderedRows_plain] at shown
  exact absurd (congrArg QueryResult.rows (Except.ok.inj shown)) (by decide)

end MoodengSQL
