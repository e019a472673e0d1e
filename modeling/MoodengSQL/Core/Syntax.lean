import MoodengSQL.Core.Types

/-!
# SQL statements

The part of the parser's syntax tree that the engine reads. Parsing itself is
the `sqlparser` crate; a statement reaches the engine as one of these trees.
Where the engine prints a node back as text, the node carries that text.
-/

namespace MoodengSQL

/-- A possibly qualified name, outermost qualifier first. -/
abbrev ObjectName := List String

/-- `extract_table_name`, also `extract_ident`: the last part of the name. -/
def extractTableName (name : ObjectName) : String := name.getLast?.getD ""

/-- Literals. `other` carries the debug text of the remaining kinds. -/
inductive SqlValue where
  | number (digits : String)
  | singleQuotedString (s : String)
  | doubleQuotedString (s : String)
  | boolean (b : Bool)
  | null
  | other (debug : String)
  deriving DecidableEq, Repr

/-- Binary operators; `other` stands for those the evaluator has no case for. -/
inductive BinaryOperator where
  | plus
  | minus
  | multiply
  | stringConcat
  | eq
  | notEq
  | lt
  | ltEq
  | gt
  | gtEq
  | and
  | or
  | other
  deriving DecidableEq, Repr

/-- Unary operators; `other` stands for those the evaluator passes through. -/
inductive UnaryOperator where
  | not
  | minus
  | other
  deriving DecidableEq, Repr

/-- Function arguments whose first one is not an expression. -/
inductive FunctionArguments where
  | notList
  | none
  | wildcard
  | other
  deriving DecidableEq, Repr

/-- Expressions. Of a function call the engine reads the printed name and the
first argument, which is an expression in `function` and something else in
`functionArgs`. -/
inductive Expr where
  | value (v : SqlValue)
  | identifier (name : String)
  | compoundIdentifier (parts : List String)
  | binaryOp (left : Expr) (op : BinaryOperator) (right : Expr)
  | unaryOp (op : UnaryOperator) (expr : Expr)
  | isNull (expr : Expr)
  | isNotNull (expr : Expr)
  | nested (expr : Expr)
  | function (name : String) (first : Expr)
  | functionArgs (name : String) (args : FunctionArguments)
  | other
  deriving DecidableEq, Repr

/-- The target of a `SET` assignment. -/
inductive AssignmentTarget where
  | columnName (name : ObjectName)
  | tuple (names : List ObjectName)
  deriving DecidableEq, Repr

/-- One `SET` assignment. -/
structure Assignment where
  target : AssignmentTarget
  value : Expr
  deriving DecidableEq, Repr

/-- A relation in a `FROM` clause; `other` is anything but a plain table. -/
inductive TableFactor where
  | table (name : ObjectName)
  | other
  deriving DecidableEq, Repr

/-- `table_factor_name`. -/
def TableFactor.name : TableFactor → String
  | .table name => extractTableName name
  | .other => ""

/-- Join operators, as far as `parse_inner_join` tells them apart. -/
inductive JoinOperator where
  | innerOn (condition : Expr)
  | innerNone
  | crossJoin
  | other
  deriving DecidableEq, Repr

/-- One join of a `FROM` item. -/
structure Join where
  relation : TableFactor
  joinOperator : JoinOperator
  deriving DecidableEq, Repr

/-- A `FROM` item with its joins. -/
structure TableWithJoins where
  relation : TableFactor
  joins : List Join
  deriving DecidableEq, Repr

/-- Items of a select list; `unnamedExpr` carries the printed expression. -/
inductive SelectItem where
  | unnamedExpr (expr : Expr) (display : String)
  | exprWithAlias (expr : Expr) (name : String)
  | wildcard
  | other
  deriving DecidableEq, Repr

/-- `GROUP BY` clauses. -/
inductive GroupByExpr where
  | all
  | expressions (exprs : List Expr)
  deriving DecidableEq, Repr

/-- One `ORDER BY` key. -/
structure OrderByExpr where
  expr : Expr
  asc : Option Bool
  deriving DecidableEq, Repr

/-- A `SELECT` body. -/
structure Select where
  projection : List SelectItem
  relations : List TableWithJoins
  selection : Option Expr
  groupBy : GroupByExpr
  deriving DecidableEq, Repr

/-- The body of a query. -/
inductive SetExpr where
  | select (select : Select)
  | values (rows : List (List Expr))
  | other
  deriving DecidableEq, Repr

/-- A query. -/
structure Query where
  body : SetExpr
  orderBy : Option (List OrderByExpr)
  limit : Option Expr
  offset : Option Expr
  deriving DecidableEq, Repr

/-- `ON CONFLICT` targets. -/
inductive ConflictTarget where
  | columns (names : List String)
  | onConstraint
  deriving DecidableEq, Repr

/-- `DO UPDATE SET assignments WHERE selection`. -/
structure DoUpdate where
  assignments : List Assignment
  selection : Option Expr
  deriving DecidableEq, Repr

/-- `ON CONFLICT` actions. -/
inductive OnConflictAction where
  | doNothing
  | doUpdate (update : DoUpdate)
  deriving DecidableEq, Repr

/-- An `ON CONFLICT` clause. -/
structure OnConflict where
  conflictTarget : Option ConflictTarget
  action : OnConflictAction
  deriving DecidableEq, Repr

/-- The clause after the rows of an `INSERT`. -/
inductive OnInsert where
  | onConflict (conflict : OnConflict)
  | duplicateKeyUpdate
  | other
  deriving DecidableEq, Repr

/-- An `INSERT` statement. -/
structure Insert where
  tableName : ObjectName
  columns : List String
  source : Option Query
  on : Option OnInsert
  deriving DecidableEq, Repr

/-- Lengths of character types. -/
inductive CharacterLength where
  | integerLength (length : Nat)
  | max
  deriving DecidableEq, Repr

/-- Type names, as far as `sql_type_to_data_type` tells them apart. -/
inductive SqlDataType where
  | int
  | integer
  | bigInt
  | float
  | double
  | text
  | string
  | boolean
  | timestamp
  | json
  | jsonb
  | varchar (size : Option CharacterLength)
  | characterVarying (size : Option CharacterLength)
  | custom (name : ObjectName)
  | other (debug : String)
  deriving DecidableEq, Repr

/-- Column options; `unique` is `UNIQUE` or, if primary, `PRIMARY KEY`. -/
inductive ColumnOption where
  | unique (isPrimary : Bool)
  | notNull
  | other
  deriving DecidableEq, Repr

/-- A column definition. -/
structure SqlColumnDef where
  name : String
  dataType : SqlDataType
  options : List ColumnOption
  deriving DecidableEq, Repr

/-- Table constraints. -/
inductive TableConstraint where
  | primaryKey (columns : List String)
  | other
  deriving DecidableEq, Repr

/-- What a `DROP` names. -/
inductive ObjectType where
  | table
  | other (display : String)
  deriving DecidableEq, Repr

/-- Statements. An indexed expression of `CREATE INDEX` carries its text. -/
inductive Statement where
  | startTransaction
  | commit
  | rollback
  | createTable (name : ObjectName) (columns : List SqlColumnDef)
      (constraints : List TableConstraint)
  | drop (objectType : ObjectType) (names : List ObjectName)
  | insert (insert : Insert)
  | query (query : Query)
  | update (table : TableWithJoins) (assignments : List Assignment) (selection : Option Expr)
  | delete (relations : List TableWithJoins) (selection : Option Expr)
  | createIndex (name : Option ObjectName) (tableName : ObjectName)
      (columns : List (Expr × String)) (unique : Bool)
  | explain (statement : Statement)
  | other (display : String)
  deriving DecidableEq, Repr

end MoodengSQL
