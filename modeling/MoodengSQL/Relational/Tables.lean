import MoodengSQL.Execution.Failure
import MoodengSQL.Reading.IndexScan

/-!
# The database as relations

What the engine is for, without how it does it. Tables are lists of rows in the order
in which they were stored, a transaction keeps a copy of them to go back to, and a
statement takes effect as a whole or is refused. There are no row ids and versions, no
indexes, no log, no files and no undo records. What a statement computes from the
values of a row (coercions, conditions, assignments) and from the catalog is the
source's.
-/

namespace MoodengSQL

open Std

/-- Catalog and rows, and inside a transaction the rows at its begin. -/
structure Relations where
  catalog : Catalog
  rows : String → List (List Value)
  saved : Option (String → List (List Value))

/-- Two rows have the same key over the columns. -/
def sameKey (columns colNames : List String) (left right : List Value) : Bool :=
  IndexKey.ofValues (keyValues columns left colNames) =
    IndexKey.ofValues (keyValues columns right colNames)

/-- None of the rows has the key of the values in a unique index. -/
def TableSchema.admits (schema : TableSchema) (rows : List (List Value)) (values : List Value) :
    Bool :=
  schema.indexes.all fun definition => !definition.unique ||
    rows.all fun row => !sameKey definition.columns schema.colNames row values

section Rows

variable [Runtime]

/-- A new row goes behind the others. -/
def addRow (schema : TableSchema) (rows : List (List Value)) (values : List Value) :
    Option (List (List Value)) :=
  if schema.admits rows values then some (rows ++ [values]) else none

/-- The values of a row after the assignments, next to the other rows. -/
def reviseRow (schema : TableSchema) (assignments : List Assignment)
    (excluded : Option (List Value)) (others : List (List Value)) (row : List Value) :
    Option (List Value) :=
  (rewrittenValues schema assignments excluded (Row.new row)).toOption.bind fun values =>
    if schema.admits others values then some values else none

/-- What the action of an `ON CONFLICT` clause makes of the row it comes upon: how many
rows the statement counts, and the values of the row. -/
def actOnConflict (schema : TableSchema) (action : OnConflictAction) (proposed : List Value)
    (others : List (List Value)) (existing : List Value) : Option (Nat × List Value) :=
  match action with
  | .doNothing => some (0, existing)
  | .doUpdate update =>
      (conflictApplies schema proposed update (Row.new existing)).toOption.bind fun applies =>
        if applies then
          (reviseRow schema update.assignments (some proposed) others existing).map fun values =>
            (1, values)
        else some (1, existing)

/-- One new row of an `INSERT`: how many rows it counts for, and the rows of the table. -/
def storeProposed (schema : TableSchema) (onConflict : Option OnConflict)
    (rows : List (List Value)) (proposed : List Value) : Option (Nat × List (List Value)) :=
  match onConflict with
  | none => (addRow schema rows proposed).map fun rows => (1, rows)
  | some conflict =>
      (resolveConflictColumns schema conflict).toOption.bind fun columns =>
        (findUniqueIndexForColumns schema columns).bind fun _ =>
          match rows.span fun row => !sameKey columns schema.colNames row proposed with
          | (_, []) => (addRow schema rows proposed).map fun rows => (1, rows)
          | (before, existing :: after) =>
              (actOnConflict schema conflict.action proposed (before ++ after) existing).map
                fun changed => (changed.1, before ++ changed.2 :: after)

/-- The rows of an `INSERT`, one after the other. -/
def insertAll (schema : TableSchema) (onConflict : Option OnConflict) :
    List (List Value) → Nat → List (List Value) → Option (Nat × List (List Value))
  | [], count, rows => some (count, rows)
  | values :: rest, count, rows =>
      (acceptedValues schema values).toOption.bind fun proposed =>
        (storeProposed schema onConflict rows proposed).bind fun stored =>
          insertAll schema onConflict rest (count + stored.1) stored.2

/-- The rows of a table after an `UPDATE`, which takes them in order: the ones it has
passed, and the ones before it. -/
def updateAll (schema : TableSchema) (assignments : List Assignment) (whereClause : Option Expr) :
    List (List Value) → List (List Value) → Nat → Option (Nat × List (List Value))
  | passed, [], count => some (count, passed)
  | passed, row :: rest, count =>
      (selects whereClause (Row.new row) schema.colNames).toOption.bind fun selected =>
        if selected then
          (reviseRow schema assignments none (passed ++ rest) row).bind fun values =>
            updateAll schema assignments whereClause (passed ++ [values]) rest (count + 1)
        else updateAll schema assignments whereClause (passed ++ [row]) rest count

/-- The rows of a table after a `DELETE`. -/
def deleteAll (schema : TableSchema) (whereClause : Option Expr) :
    List (List Value) → List (List Value) → Nat → Option (Nat × List (List Value))
  | passed, [], count => some (count, passed)
  | passed, row :: rest, count =>
      (selects whereClause (Row.new row) schema.colNames).toOption.bind fun selected =>
        if selected then deleteAll schema whereClause passed rest (count + 1)
        else deleteAll schema whereClause (passed ++ [row]) rest count

end Rows

namespace Relations

/-- No tables. -/
def empty : Relations := { catalog := ∅, rows := fun _ => [], saved := none }

def withRows (rel : Relations) (table : String) (rows : List (List Value)) : Relations :=
  { rel with rows := Function.update rel.rows table rows }

def begin (rel : Relations) : Option (QueryResult × Relations) :=
  match rel.saved with
  | none => some (.modified 0 "BEGIN", { rel with saved := some rel.rows })
  | some _ => none

def commit (rel : Relations) : Option (QueryResult × Relations) :=
  match rel.saved with
  | none => none
  | some _ => some (.modified 0 "COMMIT", { rel with saved := none })

def rollback (rel : Relations) : Option (QueryResult × Relations) :=
  match rel.saved with
  | none => none
  | some rows => some (.modified 0 "ROLLBACK", { rel with rows, saved := none })

section Statements

variable [Runtime]

def insert (rel : Relations) (stmt : Insert) : Option (QueryResult × Relations) :=
  stmt.source.bind fun source =>
    let table := extractTableName stmt.tableName
    rel.catalog[table]?.bind fun schema =>
      (valuesFromInsert source).toOption.bind fun rows =>
        (conflictClause stmt.on).toOption.bind fun onConflict =>
          (insertAll schema onConflict rows 0 (rel.rows table)).map fun stored =>
            (.modified stored.1 ("INSERT 0 " ++ toString stored.1), rel.withRows table stored.2)

def update (rel : Relations) (table : String) (assignments : List Assignment)
    (whereClause : Option Expr) : Option (QueryResult × Relations) :=
  rel.catalog[table]?.bind fun schema =>
    (updateAll schema assignments whereClause [] (rel.rows table) 0).map fun stored =>
      (.modified stored.1 ("UPDATE " ++ toString stored.1), rel.withRows table stored.2)

def delete (rel : Relations) (table : String) (whereClause : Option Expr) :
    Option (QueryResult × Relations) :=
  rel.catalog[table]?.bind fun schema =>
    (deleteAll schema whereClause [] (rel.rows table) 0).map fun stored =>
      (.modified stored.1 ("DELETE " ++ toString stored.1), rel.withRows table stored.2)

def createTable (rel : Relations) (name : ObjectName) (columns : List SqlColumnDef)
    (constraints : List TableConstraint) : Option (QueryResult × Relations) :=
  let table := extractTableName name
  (columns.mapM sqlColumnToDef).toOption.bind fun colDefs =>
    let colDefs := markPrimaryKeys (extractPkFromConstraints constraints) colDefs
    let key := (colDefs.filter ColumnDef.primaryKey).map ColumnDef.name
    (rel.catalog.createTable table colDefs).toOption.bind fun catalog =>
      (if key = [] then some catalog
        else (catalog.addIndex table
          { name := table ++ "_pkey", columns := key, unique := true }).toOption).map fun catalog =>
        (.ddl ("CREATE TABLE " ++ table), { rel with catalog })

def dropTable (rel : Relations) (table : String) : Option (QueryResult × Relations) :=
  (rel.catalog.dropTable table).toOption.map fun catalog =>
    (.ddl ("DROP TABLE " ++ table), { rel.withRows table [] with catalog })

/-- A unique index needs rows with different keys. -/
def createIndex (rel : Relations) (table indexName : String) (columns : List String)
    (unique : Bool) : Option (QueryResult × Relations) :=
  rel.catalog[table]?.bind fun schema =>
    if (columns.find? fun column => (Catalog.columnIndex schema column).isNone).isSome then none
    else if unique ∧ ¬ (rel.rows table).Pairwise fun left right =>
        !sameKey columns schema.colNames left right then none
    else (rel.catalog.addIndex table { name := indexName, columns, unique }).toOption.map
      fun catalog => (.ddl ("CREATE INDEX " ++ indexName), { rel with catalog })

/-- The statements other than queries. -/
def execute (rel : Relations) : Statement → Option (QueryResult × Relations)
  | .startTransaction => rel.begin
  | .commit => rel.commit
  | .rollback => rel.rollback
  | .createTable name columns constraints => rel.createTable name columns constraints
  | .drop .table (name :: _) => rel.dropTable (extractTableName name)
  | .insert stmt => rel.insert stmt
  | .update table assignments selection => rel.update table.relation.name assignments selection
  | .delete relations selection =>
      rel.delete ((relations.head?.map fun item => item.relation.name).getD "") selection
  | .createIndex name tableName columns unique =>
      rel.createIndex (extractTableName tableName) ((name.map extractTableName).getD "idx")
        (columns.map exprToColumnName) unique
  | _ => none

end Statements

section Queries

variable [Runtime]

/-- The rows of a table, as a query reads them. -/
def scan (rel : Relations) (table : String) : List Row := (rel.rows table).map Row.new

/-- A row of one table with a row of the next. -/
def pair (left right : Row) : Row := Row.new (left.values ++ right.values)

/-- Every join keeps the pairs of rows that satisfy its condition. -/
def join (rel : Relations) (colNames : List String) (rows : List Row) :
    List Join → Option (List String × List Row)
  | [] => some (colNames, rows)
  | join :: rest =>
      (parseInnerJoin join).toOption.bind fun joined =>
        rel.catalog[joined.1]?.bind fun schema =>
          let colNames := colNames ++ qualifiedColumns joined.1 schema
          (filterRows (some joined.2) colNames
            (rows.flatMap fun left => (rel.scan joined.1).map (pair left))).toOption.bind
              fun rows => rel.join colNames rows rest

/-- The columns of the answer. -/
def outputColumns (select : Select) (colNames : List String) : List String :=
  if hasWildcard select.projection then colNames else selectItemsToColumns select.projection

/-- A `SELECT` with joins. -/
def selectJoin (rel : Relations) (query : Query) (select : Select) (item : TableWithJoins) :
    Option QueryResult :=
  let table := item.relation.name
  rel.catalog[table]?.bind fun schema =>
    (rel.join (qualifiedColumns table schema) (rel.scan table) item.joins).bind fun joined =>
      (filterRows select.selection joined.1 joined.2).toOption.bind fun rows =>
        (finalizeSelect query select (outputColumns select joined.1) rows joined.1).toOption

/-- The table has plain column names and holds no floating-point values. -/
def Plain (schema : TableSchema) (rows : List (List Value)) : Prop :=
  (∀ name ∈ schema.colNames, '.' ∉ name.toList) ∧
    ∀ row ∈ rows, ∀ value ∈ row, value.isFloat = false

/-- The answer of a `SELECT` from one table: the kept rows, grouped, sorted, cut and
projected. They are taken in the order of the table, or in any order if the `WHERE`
clause compares a column with a value. Nothing is said of such a clause on a table that
is not plain. -/
def Selects (rel : Relations) (query : Query) (select : Select) (table : String)
    (schema : TableSchema) (answer : Option QueryResult) : Prop :=
  ((select.selection.bind extractEquality).isSome → Plain schema (rel.rows table)) →
    match filterRows select.selection schema.colNames (rel.scan table) with
    | .error _ => answer = none
    | .ok kept => ∃ taken : List Row, (taken.map Row.values).Perm (kept.map Row.values) ∧
        ((select.selection.bind extractEquality).isNone →
          taken.map Row.values = kept.map Row.values) ∧
        answer = (finalizeSelect query select (outputColumns select schema.colNames) taken
          schema.colNames).toOption

/-- The answer of a query. -/
def Answers (rel : Relations) (query : Query) (answer : Option QueryResult) : Prop :=
  match query.body with
  | .select select => match select.relations with
    | [] => answer = none
    | item :: _ =>
        if item.joins ≠ [] then answer = rel.selectJoin query select item
        else match rel.catalog[item.relation.name]? with
          | none => answer = none
          | some schema => rel.Selects query select item.relation.name schema answer
  | _ => answer = none

/-- What a statement may do. A query and an `EXPLAIN`, whose text is the engine's own,
change nothing. -/
def Does (rel : Relations) : Statement → Option (QueryResult × Relations) → Prop
  | .query query, outcome =>
      rel.Answers query (outcome.map Prod.fst) ∧ ∀ done ∈ outcome, done.2 = rel
  | .explain _, outcome => ∀ done ∈ outcome, done.2 = rel
  | stmt, outcome => outcome = rel.execute stmt

/-- A run from the empty database: the statements with their results, `none` where a
statement was refused. -/
inductive Run : List (Statement × Option QueryResult) → Relations → Prop
  | empty : Run [] empty
  | step {trace : List (Statement × Option QueryResult)} {rel : Relations} {stmt : Statement}
      {outcome : Option (QueryResult × Relations)} (run : Run trace rel)
      (does : rel.Does stmt outcome) :
      Run (trace ++ [(stmt, outcome.map Prod.fst)]) ((outcome.map Prod.snd).getD rel)

end Queries

end Relations

end MoodengSQL
