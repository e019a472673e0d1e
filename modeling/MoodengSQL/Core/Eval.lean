import MoodengSQL.Core.Syntax

/-!
# Expression evaluation and statement parts

The functions of `parser.rs` that interpret the syntax tree: literals, column
types and definitions, expressions over a row, `WHERE` clauses, assignments and
`VALUES` lists.
-/

namespace MoodengSQL

/-- The value of a list of decimal digits. -/
def digitsValue (digits : List Char) : Nat :=
  digits.foldl (fun acc c => acc * 10 + (c.toNat - '0'.toNat)) 0

/-- `str::parse` for unsigned integers: an optional plus sign and at least one
decimal digit. -/
def parseUnsigned (s : String) : Option Nat :=
  let digits := match s.toList with
    | '+' :: rest => rest
    | chars => chars
  if digits ≠ [] ∧ digits.all Char.isDigit then some (digitsValue digits) else none

/-- `str::parse::<i64>`: an optional sign, decimal digits, and a value in range. -/
def parseI64 (s : String) : Option Int64 :=
  let parsed : Option Int := match s.toList with
    | '-' :: rest =>
        if rest ≠ [] ∧ rest.all Char.isDigit then some (-(digitsValue rest : Int)) else none
    | _ => (parseUnsigned s).map Int.ofNat
  match parsed with
  | some n => if -2 ^ 63 ≤ n ∧ n < 2 ^ 63 then some (Int64.ofInt n) else none
  | none => none

section Evaluation

variable [Runtime]

/-- `Value::from_sql_literal`. -/
def Value.fromSqlLiteral : SqlValue → Value
  | .number digits =>
      if '.' ∈ digits.toList then .float8 ((Runtime.f64Parse digits).getD 0)
      else .int8 ((parseI64 digits).getD 0)
  | .singleQuotedString s => .text s
  | .doubleQuotedString s => .text s
  | .boolean b => .bool b
  | .null => .null
  | .other debug => .text debug

/-- The result of a 32-bit operation with the exact value `n`. -/
def i32Result (n : Int) : Except Failure Value :=
  if Runtime.overflowChecks ∧ ¬(-2 ^ 31 ≤ n ∧ n < 2 ^ 31) then
    .error (.panic "attempt to compute with overflow")
  else .ok (.int4 (Int32.ofInt n))

/-- The result of a 64-bit operation with the exact value `n`. -/
def i64Result (n : Int) : Except Failure Value :=
  if Runtime.overflowChecks ∧ ¬(-2 ^ 63 ≤ n ∧ n < 2 ^ 63) then
    .error (.panic "attempt to compute with overflow")
  else .ok (.int8 (Int64.ofInt n))

/-- `as_i64`. -/
def asI64 : Value → Option Int
  | .int4 n => some n.toInt
  | .int8 n => some n.toInt
  | _ => none

/-- `compare_ints`. -/
def compareInts (left right : Value) : Option Ordering := do
  let l ← asI64 left
  let r ← asI64 right
  return compare l r

/-- `values_equal`. -/
def valuesEqual (left right : Value) : Bool :=
  match asI64 left, asI64 right with
  | some l, some r => l == r
  | _, _ => match left, right with
    | .text l, .text r => l == r
    | .bool l, .bool r => l == r
    | .float8 l, .float8 r => Runtime.f64Close l r
    | .null, .null => true
    | _, _ => false

/-- `eval_binary`. Comparisons with a null are false, arithmetic with a null is
null, and every pair of operands without a case of its own gives null. -/
def evalBinary (left : Value) (op : BinaryOperator) (right : Value) : Except Failure Value :=
  let comparison := op matches .eq | .notEq | .lt | .ltEq | .gt | .gtEq
  let connective := op matches .and | .or
  if (left.isNull || right.isNull) && comparison then .ok (.bool false)
  else if (left.isNull || right.isNull) && !connective then .ok .null
  else match left, op, right with
    | .int4 a, .plus, .int4 b => i32Result (a.toInt + b.toInt)
    | .int8 a, .plus, .int8 b => i64Result (a.toInt + b.toInt)
    | .int4 a, .minus, .int8 b => i64Result (a.toInt - b.toInt)
    | .int8 a, .multiply, .int8 b => i64Result (a.toInt * b.toInt)
    | .float8 a, .plus, .float8 b => .ok (.float8 (Runtime.f64Add a b))
    | .float8 a, .minus, .float8 b => .ok (.float8 (Runtime.f64Sub a b))
    | .text a, .stringConcat, .text b => .ok (.text (a ++ b))
    | a, .eq, b => .ok (.bool (valuesEqual a b))
    | a, .notEq, b => .ok (.bool (!valuesEqual a b))
    | a, .lt, b => .ok (.bool (compareInts a b == some .lt))
    | a, .ltEq, b => .ok (.bool ((compareInts a b).any (· != .gt)))
    | a, .gt, b => .ok (.bool (compareInts a b == some .gt))
    | a, .gtEq, b => .ok (.bool ((compareInts a b).any (· != .lt)))
    | .bool a, .and, .bool b => .ok (.bool (a && b))
    | .bool a, .or, .bool b => .ok (.bool (a || b))
    | _, _, _ => .ok .null

/-- The part of a name after its last dot: `col.rsplit('.').next()`. -/
def bareName (column : String) : String :=
  String.ofList (column.toList.reverse.takeWhile (· ≠ '.')).reverse

/-- `column_value`. -/
def columnValue (column : String) (row : List Value) (columns : List String) :
    Except Failure Value :=
  let position := columns.findIdx? fun name =>
    eqIgnoreAsciiCase name column || eqIgnoreAsciiCase name (bareName column)
  match position with
  | some index => .ok (row.getD index .null)
  | none => .error (.error (.columnNotFound column))

/-- `excluded_value`. -/
def excludedValue (column : String) (excluded : Option (List Value)) (columns : List String) :
    Except Failure Value :=
  match excluded with
  | some row => columnValue column row columns
  | none => .error (.error (.execution "EXCLUDED is only valid in ON CONFLICT DO UPDATE"))

/-- The name a compound identifier is looked up under: its last two parts. -/
def compoundName (parts : List String) : String :=
  match parts.reverse with
  | last :: qualifier :: _ => qualifier ++ "." ++ last
  | [last] => last
  | [] => ""

/-- `eval_expr_with_excluded`. -/
def evalExprWithExcluded (row : List Value) (columns : List String)
    (excluded : Option (List Value)) : Expr → Except Failure Value
  | .value v => .ok (Value.fromSqlLiteral v)
  | .identifier name => columnValue name row columns
  | .compoundIdentifier parts =>
      if 2 ≤ parts.length ∧ eqIgnoreAsciiCase (parts.headD "") "excluded" then
        excludedValue (parts.getLastD "") excluded columns
      else columnValue (compoundName parts) row columns
  | .binaryOp left op right => do
      let l ← evalExprWithExcluded row columns excluded left
      let r ← evalExprWithExcluded row columns excluded right
      evalBinary l op r
  | .unaryOp op expr => do
      let v ← evalExprWithExcluded row columns excluded expr
      match op with
      | .not => match v with
        | .bool b => .ok (.bool (!b))
        | _ => .ok (.bool false)
      | .minus => match v with
        | .int4 n => i32Result (-n.toInt)
        | .int8 n => i64Result (-n.toInt)
        | .float8 bits => .ok (.float8 (Runtime.f64Neg bits))
        | other => .ok other
      -- the source evaluates the operand a second time here
      | .other => .ok v
  | .isNull expr => do
      let v ← evalExprWithExcluded row columns excluded expr
      .ok (.bool v.isNull)
  | .isNotNull expr => do
      let v ← evalExprWithExcluded row columns excluded expr
      .ok (.bool (!v.isNull))
  | .nested expr => evalExprWithExcluded row columns excluded expr
  | .function name first =>
      let upper := Runtime.toUppercase name
      if upper = "COUNT" then .ok (.int8 1)
      else if upper = "UPPER" then do
        match ← evalExprWithExcluded row columns excluded first with
        | .text s => .ok (.text (Runtime.toUppercase s))
        | _ => .ok .null
      else if upper = "LOWER" then do
        match ← evalExprWithExcluded row columns excluded first with
        | .text s => .ok (.text (Runtime.toLowercase s))
        | _ => .ok .null
      else .ok .null
  | .functionArgs name args =>
      if args ≠ .notList ∧ Runtime.toUppercase name = "COUNT" then .ok (.int8 1) else .ok .null
  | .other => .ok .null

/-- `eval_expr`. -/
def evalExpr (expr : Expr) (row : List Value) (columns : List String) : Except Failure Value :=
  evalExprWithExcluded row columns none expr

/-- `eval_where_with_excluded`: a boolean is itself, null is false, and any
other value counts as true. -/
def evalWhereWithExcluded (expr : Expr) (row : List Value) (columns : List String)
    (excluded : Option (List Value)) : Except Failure Bool := do
  match ← evalExprWithExcluded row columns excluded expr with
  | .bool b => .ok b
  | .null => .ok false
  | _ => .ok true

/-- `eval_where`. -/
def evalWhere (expr : Expr) (row : List Value) (columns : List String) : Except Failure Bool :=
  evalWhereWithExcluded expr row columns none

/-- The column an assignment names. -/
def AssignmentTarget.column : AssignmentTarget → String
  | .columnName name => extractTableName name
  | .tuple names => (names.head?.map extractTableName).getD ""

/-- `assignment_value_with_excluded`. -/
def assignmentValueWithExcluded (assign : Assignment) (row : List Value) (columns : List String)
    (excluded : Option (List Value)) : Except Failure (String × Value) := do
  let value ← evalExprWithExcluded row columns excluded assign.value
  .ok (assign.target.column, value)

/-- `values_from_insert`: every row of a `VALUES` list, an expression that is
not a literal becoming null. -/
def valuesFromInsert (source : Query) : Except Failure (List (List Value)) :=
  match source.body with
  | .values rows => .ok (rows.map fun row => row.map fun expr =>
      match expr with
      | .value v => Value.fromSqlLiteral v
      | _ => .null)
  | _ => .error (.error (.parse "only VALUES inserts supported"))

end Evaluation

/-- `extract_pk_from_constraints`. -/
def extractPkFromConstraints (constraints : List TableConstraint) : List String :=
  constraints.flatMap fun constraint =>
    match constraint with
    | .primaryKey columns => columns
    | .other => []

/-- `s.trim_start_matches(pattern)` for a nonempty pattern. -/
def trimStartMatches (pattern : List Char) (fuel : Nat) (s : List Char) : List Char :=
  match fuel with
  | 0 => s
  | fuel + 1 =>
      if pattern.isPrefixOf s then trimStartMatches pattern fuel (s.drop pattern.length) else s

/-- `DataType::from_sql`. -/
def DataType.fromSql [Runtime] (name : String) : Option DataType :=
  let upper := Runtime.toUppercase name
  if upper ∈ ["INT", "INTEGER", "INT4"] then some .int4
  else if upper ∈ ["BIGINT", "INT8"] then some .int8
  else if upper ∈ ["REAL", "FLOAT4"] then some .float4
  else if upper ∈ ["DOUBLE PRECISION", "FLOAT8", "FLOAT"] then some .float8
  else if upper ∈ ["TEXT", "STRING"] then some .text
  else if upper ∈ ["BOOLEAN", "BOOL"] then some .bool
  else if upper ∈ ["TIMESTAMP", "TIMESTAMPTZ"] then some .timestamp
  else if upper ∈ ["JSON", "JSONB"] then some .json
  else if "VARCHAR".toList.isPrefixOf upper.toList then
    let rest := trimStartMatches "VARCHAR".toList upper.length upper.toList
    let body := ((rest.dropWhile (· == '(')).reverse.dropWhile (· == ')')).reverse
    let length := (parseUnsigned (String.ofList body)).filter (· < 2 ^ 64)
    some (.varchar (length.getD 255))
  else none

/-- The length of a character column. -/
def characterLength : Option CharacterLength → Nat
  | some (.integerLength length) => length
  | some .max => 65535
  | none => 255

/-- `sql_type_to_data_type`. -/
def sqlTypeToDataType [Runtime] : SqlDataType → Except Failure DataType
  | .int => .ok .int4
  | .integer => .ok .int4
  | .bigInt => .ok .int8
  | .float => .ok .float4
  | .double => .ok .float8
  | .text => .ok .text
  | .string => .ok .text
  | .boolean => .ok .bool
  | .timestamp => .ok .timestamp
  | .json => .ok .json
  | .jsonb => .ok .json
  | .varchar size => .ok (.varchar (characterLength size))
  | .characterVarying size => .ok (.varchar (characterLength size))
  | .custom name => match name.getLast? with
    | some last => match DataType.fromSql last with
      | some dataType => .ok dataType
      | none => .error (.error (.parse ("unsupported type: " ++ last)))
    | none => .error (.error (.parse "unsupported type: Custom(ObjectName([]), [])"))
  | .other debug => .error (.error (.parse ("unsupported type: " ++ debug)))

/-- `sql_column_to_def`. A column-level `PRIMARY KEY` does not make the column
`NOT NULL`; only the table-level constraint does, in `createTable`. -/
def sqlColumnToDef [Runtime] (column : SqlColumnDef) : Except Failure ColumnDef := do
  let dataType ← sqlTypeToDataType column.dataType
  .ok { name := column.name
        dataType
        nullable := !(ColumnOption.notNull ∈ column.options : Bool)
        primaryKey := ColumnOption.unique true ∈ column.options }

end MoodengSQL
