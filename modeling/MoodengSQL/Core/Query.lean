import MoodengSQL.Core.Session

/-!
# Queries

Planning, filtering, joining, grouping, sorting and projecting: the functions
behind `SELECT` and `EXPLAIN`. They read the database and change nothing.
-/

namespace MoodengSQL

open Std

/-- `ScanPlan`. -/
inductive ScanPlan where
  | fullScan
  | indexLookup (indexName : String) (keyValues : List Value)
  deriving DecidableEq, Repr

/-- The `Display` text of a plan. -/
def ScanPlan.display : ScanPlan → String
  | .fullScan => "Seq Scan"
  | .indexLookup indexName _ => "Index Scan using " ++ indexName

section Reading

variable [Runtime]

/-- `extract_equality`. -/
def extractEquality : Expr → Option (String × Value)
  | .binaryOp (.identifier name) .eq (.value v) => some (name, Value.fromSqlLiteral v)
  | .binaryOp (.value v) .eq (.identifier name) => some (name, Value.fromSqlLiteral v)
  | .nested inner => extractEquality inner
  | _ => none

/-- `plan_scan`. -/
def planScan (table : String) (whereClause : Option Expr) (indexes : IndexManager)
    (colNames : List String) : ScanPlan :=
  match whereClause.bind extractEquality with
  | none => .fullScan
  | some (column, value) =>
      if colNames.all fun name => !eqIgnoreAsciiCase name column then .fullScan
      else match indexes.findIndexForColumn table column with
        | some indexName => .indexLookup indexName [value]
        | none => .fullScan

/-- The rows of a list that a `WHERE` clause keeps. -/
def filterRows (whereClause : Option Expr) (colNames : List String) :
    List Row → Except Failure (List Row)
  | [] => .ok []
  | row :: rest => do
      let keep ← match whereClause with
        | some condition => evalWhere condition row.values colNames
        | none => .ok true
      let kept ← filterRows whereClause colNames rest
      .ok (if keep then row :: kept else kept)

/-- `compare_values`. -/
def compareValues (left right : Value) : Ordering :=
  match left, right with
  | .null, .null => .eq
  | .null, _ => .lt
  | _, .null => .gt
  | .int4 a, .int4 b => compare a.toInt b.toInt
  | .int8 a, .int8 b => compare a.toInt b.toInt
  | .text a, .text b => compare a b
  | .float8 a, .float8 b => (Runtime.f64PartialCmp a b).getD .eq
  | .bool a, .bool b => compare a b
  | a, b => compare a.toDisplayString b.toDisplayString

/-- The value of a sort key. `unwrap_or` takes an error for null; a panic is not
one. -/
def sortKey (expr : Expr) (row : Row) (colNames : List String) : Except Failure Value :=
  match evalExpr expr row.values colNames with
  | .ok value => .ok value
  | .error (.error _) => .ok .null
  | .error (.panic reason) => .error (.panic reason)

/-- The comparison `sort_rows` sorts by. -/
def compareRows (orderBy : List OrderByExpr) (colNames : List String) (a b : Row) :
    Except Failure Ordering :=
  match orderBy with
  | [] => .ok .eq
  | key :: rest => do
      let va ← sortKey key.expr a colNames
      let vb ← sortKey key.expr b colNames
      let ord := compareValues va vb
      if ord ≠ .eq then .ok (if key.asc.getD true then ord else ord.swap)
      else compareRows rest colNames a b

/-- Put a row before the first one it does not come after. -/
def insertSorted (orderBy : List OrderByExpr) (colNames : List String) (row : Row) :
    List Row → Except Failure (List Row)
  | [] => .ok [row]
  | other :: rest => do
      let ord ← compareRows orderBy colNames row other
      if ord ≠ .gt then .ok (row :: other :: rest)
      else (insertSorted orderBy colNames row rest).map (other :: ·)

/-- `sort_rows`, a stable sort. Which rows a sort compares is up to the library, and
a panic of a comparison ends it. -/
def sortRows (rows : List Row) (orderBy : List OrderByExpr) (colNames : List String) :
    Except Failure (List Row) :=
  match rows with
  | [] => .ok []
  | row :: rest => do
      let sorted ← sortRows rest orderBy colNames
      insertSorted orderBy colNames row sorted

/-- `expr_to_usize`. -/
def exprToUsize (expr : Expr) (colNames : List String) : Except Failure Nat := do
  let value ← evalExpr expr [] colNames
  match asI64 value with
  | some n =>
      if 0 ≤ n then .ok n.toNat
      else .error (.error (.execution ("invalid limit/offset: " ++ value.toDisplayString)))
  | none => .error (.error (.execution ("invalid limit/offset: " ++ value.toDisplayString)))

/-- `apply_limit_offset`. -/
def applyLimitOffset (rows : List Row) (limit offset : Option Expr) (colNames : List String) :
    Except Failure (List Row) := do
  let off ← match offset with
    | some expr => exprToUsize expr colNames
    | none => .ok 0
  let lim ← match limit with
    | some expr => (exprToUsize expr colNames).map some
    | none => .ok none
  let rest := rows.drop off
  .ok (match lim with
    | some n => rest.take n
    | none => rest)

/-- `is_agg_expr`. -/
def isAggExpr : Expr → Bool
  | .function name _ =>
      Runtime.toUppercase name ∈ ["COUNT", "SUM", "AVG", "MIN", "MAX"]
  | .functionArgs name _ =>
      Runtime.toUppercase name ∈ ["COUNT", "SUM", "AVG", "MIN", "MAX"]
  | _ => false

/-- `is_aggregate_query`. -/
def isAggregateQuery (items : List SelectItem) : Bool :=
  items.any fun item => match item with
    | .unnamedExpr expr _ => isAggExpr expr
    | .exprWithAlias expr _ => isAggExpr expr
    | _ => false

/-- `value_as_f64`. -/
def valueAsF64 : Value → Option UInt64
  | .int4 n => some (Runtime.f64OfInt n.toInt)
  | .int8 n => some (Runtime.f64OfInt n.toInt)
  | .float4 bits => some (Runtime.f64OfF32 bits)
  | .float8 bits => some bits
  | _ => none

/-- `Iterator::min_by`: the first of the least values. -/
def minBy (values : List Value) : Option Value :=
  match values with
  | [] => none
  | first :: rest => some (rest.foldl
      (fun best v => if compareValues best v = .gt then v else best) first)

/-- `Iterator::max_by`: the last of the greatest values. -/
def maxBy (values : List Value) : Option Value :=
  match values with
  | [] => none
  | first :: rest => some (rest.foldl
      (fun best v => if compareValues best v = .gt then best else v) first)

/-- `eval_agg_expr` for the aggregate `name` over the argument values. -/
def evalAggregate (name : String) (arguments : List Value) (rowCount : Nat) : Value :=
  let upper := Runtime.toUppercase name
  let numbers := arguments.filterMap valueAsF64
  if upper = "COUNT" then .int8 (Int64.ofNat rowCount)
  else if upper = "SUM" then .float8 (Runtime.f64Sum numbers)
  else if upper = "AVG" then
    .float8 (if numbers = [] then 0
      else Runtime.f64Div (Runtime.f64Sum numbers) (Runtime.f64OfInt numbers.length))
  else if upper = "MIN" then (minBy arguments).getD .null
  else (maxBy arguments).getD .null

/-- `eval_grouped_expr`. -/
def evalGroupedExpr (expr : Expr) (groupRows : List Row) (colNames : List String) :
    Except Failure Value :=
  if isAggExpr expr then
    match expr with
    | .function name first =>
        if Runtime.toUppercase name = "COUNT" then .ok (evalAggregate name [] groupRows.length)
        else do
          let arguments ← groupRows.mapM fun row => evalExpr first row.values colNames
          .ok (evalAggregate name arguments groupRows.length)
    | .functionArgs name _ => .ok (evalAggregate name [] groupRows.length)
    | _ => .ok .null
  else evalExpr expr ((groupRows.head?.map Row.values).getD []) colNames

/-- The key of a row under `GROUP BY`: the printed values, joined. -/
def groupKey (groupExprs : List Expr) (row : Row) (colNames : List String) :
    Except Failure String := do
  let parts ← groupExprs.mapM fun expr => evalExpr expr row.values colNames
  .ok (String.intercalate "\x1f" (parts.map Value.toDisplayString))

/-- The grouping loop of `apply_group_by`. -/
def groupRows (groupExprs : List Expr) (colNames : List String) :
    Map String (List Row) → List Row → Except Failure (Map String (List Row))
  | groups, [] => .ok groups
  | groups, row :: rest => do
      let key ← groupKey groupExprs row colNames
      groupRows groupExprs colNames (groups.insert key (groups.getD key [] ++ [row])) rest

/-- The select list has a `*`. -/
def hasWildcard (items : List SelectItem) : Bool :=
  items.any fun item => item matches .wildcard

/-- The values of a select list over a group. -/
def groupValues (items : List SelectItem) (rows : List Row) (colNames : List String) :
    Except Failure (List Value) :=
  (items.filterMap fun item => match item with
    | .unnamedExpr expr _ => some expr
    | .exprWithAlias expr _ => some expr
    | _ => none).mapM fun expr => evalGroupedExpr expr rows colNames

/-- `apply_group_by`. A query that neither groups nor aggregates keeps its rows. -/
def applyGroupBy (items : List SelectItem) (groupExprs : List Expr) (rows : List Row)
    (colNames : List String) : Except Failure (List String × List Row) :=
  if groupExprs = [] ∧ !isAggregateQuery items then .ok ([], rows)
  else do
    let groups ← groupRows groupExprs colNames ∅ rows
    let outputCols :=
      if hasWildcard items then colNames
      else items.filterMap fun item => match item with
        | .exprWithAlias _ name => some name
        | .unnamedExpr _ display => some display
        | _ => none
    let result ← (Runtime.hashOrder.order "groups" groups.values).mapM fun members =>
      match hasWildcard items, members with
      | true, first :: _ => .ok (Row.new first.values)
      | _, _ => (groupValues items members colNames).map Row.new
    .ok (outputCols, result)

/-- `project_rows`. -/
def projectRows (items : List SelectItem) (rows : List Row) (colNames : List String) :
    Except Failure (List Row) :=
  rows.mapM fun row =>
    if hasWildcard items then .ok (Row.new row.values)
    else (items.mapM fun (item : SelectItem) => match item with
      | .unnamedExpr expr _ => evalExpr expr row.values colNames
      | .exprWithAlias expr _ => evalExpr expr row.values colNames
      | _ => .ok .null).map Row.new

/-- `group_by_exprs`. -/
def groupByExprs : GroupByExpr → List Expr
  | .all => []
  | .expressions exprs => exprs

/-- `select_items_to_columns`. -/
def selectItemsToColumns (items : List SelectItem) : List String :=
  items.filterMap fun item => match item with
    | .unnamedExpr (.identifier name) _ => some name
    | .unnamedExpr (.compoundIdentifier parts) _ => some (parts.getLast?.getD "")
    | .unnamedExpr _ display => some display
    | .exprWithAlias _ name => some name
    | _ => none

/-- `finalize_select`. -/
def finalizeSelect (query : Query) (select : Select) (outputCols : List String)
    (rows : List Row) (colNames : List String) : Except Failure QueryResult := do
  let groupExprs := groupByExprs select.groupBy
  let (outputCols, rows) ←
    if groupExprs = [] ∧ !isAggregateQuery select.projection then .ok (outputCols, rows)
    else do
      let (gbCols, gbRows) ← applyGroupBy select.projection groupExprs rows colNames
      .ok (if gbCols = [] then outputCols else gbCols, gbRows)
  let rows ← match query.orderBy with
    | some keys => sortRows rows keys colNames
    | none => .ok rows
  let rows ← applyLimitOffset rows query.limit query.offset colNames
  let rows ← projectRows select.projection rows colNames
  .ok (QueryResult.select outputCols rows)

/-- `parse_inner_join`. -/
def parseInnerJoin (join : Join) : Except Failure (String × Expr) :=
  match join.joinOperator with
  | .innerOn condition => .ok (join.relation.name, condition)
  | .innerNone => .error (.error (.parse "JOIN requires ON clause"))
  | .crossJoin => .error (.error (.parse "JOIN requires ON clause"))
  | .other => .error (.error (.parse "only INNER JOIN supported"))

/-- The qualified column names of a joined table. -/
def qualifiedColumns (table : String) (schema : TableSchema) : List String :=
  schema.columns.map fun c => table ++ "." ++ c.name

/-- The pairs of a joined row with the rows of the next table that satisfy the
condition. -/
def joinRow (condition : Expr) (colNames : List String) (left : Row) :
    List (Nat × Row) → Except Failure (List Row)
  | [] => .ok []
  | (_, right) :: rest => do
      let values := left.values ++ right.values
      let keep ← evalWhere condition values colNames
      let joined ← joinRow condition colNames left rest
      .ok (if keep then Row.new values :: joined else joined)

/-- The join loop of `select_join`: the columns and rows of the tables so far. -/
def joinTables (db : Database) (colNames : List String) (rows : List Row) :
    List Join → Except Failure (List String × List Row)
  | [] => .ok (colNames, rows)
  | join :: rest => do
      let (table, condition) ← parseInnerJoin join
      let schema ← db.catalog.getTable table
      let colNames := colNames ++ qualifiedColumns table schema
      let joined ← rows.mapM fun row => joinRow condition colNames row (db.storage.scan table)
      joinTables db colNames joined.flatten rest

/-- `select_join`. -/
def selectJoin (db : Database) (query : Query) (select : Select) (item : TableWithJoins) :
    Except Failure QueryResult := do
  let leftTable := item.relation.name
  let leftSchema ← db.catalog.getTable leftTable
  let leftRows := (db.storage.scan leftTable).map fun entry => Row.new entry.2.values
  let (colNames, joined) ←
    joinTables db (qualifiedColumns leftTable leftSchema) leftRows item.joins
  let outputCols :=
    if hasWildcard select.projection then colNames else selectItemsToColumns select.projection
  let rows ← filterRows select.selection colNames joined
  finalizeSelect query select outputCols rows colNames

/-- The rows a plan yields. -/
def candidateRows (db : Database) (table : String) : ScanPlan →
    Except Failure (List (Nat × Row))
  | .fullScan => .ok (db.storage.scan table)
  | .indexLookup indexName keyValues =>
      db.storage.fetchByIds table (db.indexes.lookup table indexName keyValues)

/-- `Executor::select`. -/
def select (db : Database) (query : Query) : Except Failure QueryResult :=
  match query.body with
  | .select select => match select.relations with
    | [] => .error (.error (.parse "missing FROM"))
    | item :: _ =>
        if item.joins ≠ [] then selectJoin db query select item
        else do
          let table := item.relation.name
          let schema ← db.catalog.getTable table
          let outputCols :=
            if hasWildcard select.projection then schema.colNames
            else selectItemsToColumns select.projection
          let plan := planScan table select.selection db.indexes schema.colNames
          let candidates ← candidateRows db table plan
          let rows ← filterRows select.selection schema.colNames (candidates.map Prod.snd)
          finalizeSelect query select outputCols rows schema.colNames
  | _ => .error (.error (.parse "unsupported SELECT"))

/-- `Executor::explain`. -/
def explain (db : Database) (statement : Statement) : Except Failure QueryResult :=
  match statement with
  | .query query => match query.body with
    | .select select => match select.relations with
      | item :: _ =>
          if item.joins ≠ [] then
            .error (.error (.execution "EXPLAIN for JOIN not yet supported"))
          else do
            let table := item.relation.name
            let schema ← db.catalog.getTable table
            let plan := planScan table select.selection db.indexes schema.colNames
            let lines := [plan.display ++ " on " ++ table] ++ match plan with
              | .indexLookup _ (value :: _) =>
                  ["  Index Cond: (= " ++ value.toDisplayString ++ ")"]
              | _ => []
            .ok (QueryResult.select ["QUERY PLAN"]
              [Row.new [.text (String.intercalate "\n" lines)]])
      | [] => .error (.error (.execution "EXPLAIN for JOIN not yet supported"))
    | _ => .error (.error (.parse "EXPLAIN only supports simple SELECT"))
  | _ => .error (.error (.execution "EXPLAIN only supports SELECT queries"))

end Reading

end MoodengSQL
