import Mathlib

/-!
# Values, types and rows

The runtime data of the engine: column types, the values rows hold, rows with
their optimistic version, and the errors statements return. Machine integers
are Lean's fixed-width signed integers. Floating-point numbers are kept as
their bit patterns, and a JSON value as the text it prints to, which is all the
engine reads of it.

Everything the engine takes from outside its own source and that no proof
looks into is a field of `Runtime`: the iteration order of its hash maps, the
build's overflow mode, floating-point arithmetic and Unicode case mapping.
-/

namespace MoodengSQL

/-- The order in which a hash map yields its entries. `site` names the map, so
that two maps with equal entries may be visited in different orders. -/
structure HashOrder where
  order : String → {α : Type} → List α → List α
  perm : ∀ (site : String) {α : Type} (entries : List α), (order site entries).Perm entries

/-- The surroundings of the engine: hash seeds, build profile, the checkpoint
interval, and the standard-library functions on floats and text. -/
class Runtime where
  hashOrder : HashOrder
  /-- `CHECKPOINT_INTERVAL`; the shipped value is `CHECKPOINT_INTERVAL` below. -/
  checkpointInterval : Nat
  /-- Integer overflow panics (debug builds) instead of wrapping. -/
  overflowChecks : Bool
  f64Parse : String → Option UInt64
  f64Add : UInt64 → UInt64 → UInt64
  f64Sub : UInt64 → UInt64 → UInt64
  f64Neg : UInt64 → UInt64
  f64Div : UInt64 → UInt64 → UInt64
  f64Sum : List UInt64 → UInt64
  f64OfInt : Int → UInt64
  f64OfF32 : UInt32 → UInt64
  /-- `(x - y).abs() < f64::EPSILON`. -/
  f64Close : UInt64 → UInt64 → Bool
  f64PartialCmp : UInt64 → UInt64 → Option Ordering
  f64Display : UInt64 → String
  f32Display : UInt32 → String
  toUppercase : String → String
  toLowercase : String → String

/-- The interval the engine is compiled with. -/
def CHECKPOINT_INTERVAL : Nat := 50

/-- A runtime to evaluate the model in: the shipped interval, hash maps that yield
their entries in key order, wrapping arithmetic, IEEE floats, and text functions
that agree with the standard library on ASCII text. It accepts no float literal. -/
@[reducible] def Runtime.reference : Runtime where
  hashOrder := { order := fun _ _ entries => entries, perm := fun _ _ entries => .refl entries }
  checkpointInterval := CHECKPOINT_INTERVAL
  overflowChecks := false
  f64Parse := fun _ => none
  f64Add := fun a b => (Float.ofBits a + Float.ofBits b).toBits
  f64Sub := fun a b => (Float.ofBits a - Float.ofBits b).toBits
  f64Neg := fun a => (-Float.ofBits a).toBits
  f64Div := fun a b => (Float.ofBits a / Float.ofBits b).toBits
  f64Sum := fun xs => (xs.foldl (fun acc x => acc + Float.ofBits x) 0).toBits
  f64OfInt := fun n => (Float.ofInt n).toBits
  f64OfF32 := fun bits => (Float32.ofBits bits).toFloat.toBits
  f64Close := fun a b => (Float.ofBits a - Float.ofBits b).abs < 2.220446049250313e-16
  f64PartialCmp := fun a b =>
    if Float.ofBits a < Float.ofBits b then some .lt
    else if Float.ofBits a == Float.ofBits b then some .eq
    else if Float.ofBits b < Float.ofBits a then some .gt
    else none
  f64Display := fun bits => toString (Float.ofBits bits)
  f32Display := fun bits => toString (Float32.ofBits bits)
  toUppercase := String.toUpper
  toLowercase := String.toLower

/-- Column types. -/
inductive DataType where
  | int4
  | int8
  | float4
  | float8
  | text
  | varchar (length : Nat)
  | bool
  | timestamp
  | json
  deriving DecidableEq, Repr

/-- `DataType::name`. -/
def DataType.name : DataType → String
  | .int4 => "INT4"
  | .int8 => "INT8"
  | .float4 => "FLOAT4"
  | .float8 => "FLOAT8"
  | .text => "TEXT"
  | .varchar _ => "VARCHAR"
  | .bool => "BOOL"
  | .timestamp => "TIMESTAMP"
  | .json => "JSON"

/-- The `Display` text of a type. -/
def DataType.display : DataType → String
  | .varchar length => "VARCHAR(" ++ toString length ++ ")"
  | other => other.name

/-- Runtime values stored in rows. -/
inductive Value where
  | null
  | int4 (n : Int32)
  | int8 (n : Int64)
  | float4 (bits : UInt32)
  | float8 (bits : UInt64)
  | text (s : String)
  | bool (b : Bool)
  | timestamp (n : Int64)
  | json (printed : String)
  deriving DecidableEq, Repr

namespace Value

/-- `Value::is_null`. -/
def isNull : Value → Bool
  | .null => true
  | _ => false

/-- `Value::type_name`. -/
def typeName : Value → String
  | .null => "NULL"
  | .int4 _ => "INT4"
  | .int8 _ => "INT8"
  | .float4 _ => "FLOAT4"
  | .float8 _ => "FLOAT8"
  | .text _ => "TEXT"
  | .bool _ => "BOOL"
  | .timestamp _ => "TIMESTAMP"
  | .json _ => "JSON"

/-- `Value::to_display_string`. -/
def toDisplayString [Runtime] : Value → String
  | .null => "NULL"
  | .int4 n => toString n.toInt
  | .int8 n => toString n.toInt
  | .float4 bits => Runtime.f32Display bits
  | .float8 bits => Runtime.f64Display bits
  | .text s => s
  | .bool b => if b then "true" else "false"
  | .timestamp n => toString n.toInt
  | .json printed => printed

end Value

/-- The errors of the engine. -/
inductive MoodengError where
  | parse (message : String)
  | execution (message : String)
  | tableNotFound (table : String)
  | columnNotFound (column : String)
  | typeMismatch (expected actual : String)
  | duplicateKey (message : String)
  | versionConflict (table : String) (rowId : Nat)
  | indexExists (index : String)
  | storage (message : String)
  deriving DecidableEq, Repr

/-- How a call can end other than by returning `Ok`: with an error value, or by
a panic of the thread. -/
inductive Failure where
  | error (e : MoodengError)
  | panic (reason : String)
  deriving DecidableEq, Repr

/-- `Value::coerce_to`. A null stays null for every target, and a `VARCHAR`
column accepts any value unchanged. -/
def Value.coerceTo [Runtime] (value : Value) (target : DataType) : Except Failure Value :=
  if value.isNull then .ok .null
  else match value, target with
    | .int4 n, .int8 => .ok (.int8 n.toInt64)
    | .int8 n, .int4 => .ok (.int4 n.toInt32)
    | .int4 n, .float8 => .ok (.float8 (Runtime.f64OfInt n.toInt))
    | .int8 n, .float8 => .ok (.float8 (Runtime.f64OfInt n.toInt))
    | .float4 bits, .float8 => .ok (.float8 (Runtime.f64OfF32 bits))
    | value, .varchar _ => .ok value
    | value, target =>
        if value.typeName = target.name then .ok value
        else .error (.error (.typeMismatch target.display value.typeName))

/-- A column of a table. -/
structure ColumnDef where
  name : String
  dataType : DataType
  nullable : Bool
  primaryKey : Bool
  deriving DecidableEq, Repr

/-- A stored row: its values and its optimistic version. -/
structure Row where
  values : List Value
  version : Nat
  deriving DecidableEq, Repr

/-- `Row::new`: a fresh row has version one. -/
def Row.new (values : List Value) : Row := { values, version := 1 }

/-- What a statement returns to its client. -/
structure QueryResult where
  columns : List String
  rows : List Row
  rowsAffected : Nat
  message : Option String
  metaChanged : Bool
  deriving DecidableEq, Repr

namespace QueryResult

def empty (message : String) : QueryResult :=
  { columns := [], rows := [], rowsAffected := 0, message := some message, metaChanged := false }

def select (columns : List String) (rows : List Row) : QueryResult :=
  { columns, rows, rowsAffected := rows.length, message := none, metaChanged := false }

def modified (rowsAffected : Nat) (message : String) : QueryResult :=
  { columns := [], rows := [], rowsAffected, message := some message, metaChanged := false }

def ddl (message : String) : QueryResult :=
  { columns := [], rows := [], rowsAffected := 0, message := some message, metaChanged := true }

end QueryResult

/-- `str::eq_ignore_ascii_case`. -/
def eqIgnoreAsciiCase (left right : String) : Bool :=
  left.toList.map Char.toLower == right.toList.map Char.toLower

end MoodengSQL
