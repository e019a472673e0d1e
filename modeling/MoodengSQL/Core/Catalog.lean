import MoodengSQL.Core.Eval

/-!
# The catalog

Table schemas with their index definitions. The catalog's counters feed no
decision of the engine and are left out.
-/

namespace MoodengSQL

/-- Finite maps. They are extensional, so the order in which a hash map of the
source yields its entries is not part of the value; where the source iterates,
the model asks `Runtime.hashOrder`. -/
abbrev Map (κ ν : Type) [Ord κ] := Std.ExtTreeMap κ ν compare

theorem Map.mem_of_getElem?_eq_some {κ ν : Type} [Ord κ] [Std.TransOrd κ] {map : Map κ ν}
    {key : κ} {value : ν} (found : map[key]? = some value) : key ∈ map :=
  Std.ExtTreeMap.mem_iff_isSome_getElem?.mpr (Option.isSome_of_eq_some found)

/-- The definition of an index. -/
structure IndexMeta where
  name : String
  columns : List String
  unique : Bool
  deriving DecidableEq, Repr

/-- The schema of a table. -/
structure TableSchema where
  name : String
  columns : List ColumnDef
  indexes : List IndexMeta
  deriving DecidableEq, Repr

/-- The names of the columns, in order. -/
def TableSchema.colNames (schema : TableSchema) : List String := schema.columns.map ColumnDef.name

/-- The catalog: schemas by table name. -/
abbrev Catalog := Map String TableSchema

namespace Catalog

/-- `Catalog::create_table`. -/
def createTable (catalog : Catalog) (name : String) (columns : List ColumnDef) :
    Except Failure Catalog :=
  if name ∈ catalog then .error (.error (.execution ("table '" ++ name ++ "' already exists")))
  else .ok (catalog.insert name { name, columns, indexes := [] })

/-- `Catalog::drop_table`. -/
def dropTable (catalog : Catalog) (name : String) : Except Failure Catalog :=
  if name ∈ catalog then .ok (catalog.erase name) else .error (.error (.tableNotFound name))

/-- `Catalog::get_table`. -/
def getTable (catalog : Catalog) (name : String) : Except Failure TableSchema :=
  match catalog[name]? with
  | some schema => .ok schema
  | none => .error (.error (.tableNotFound name))

/-- `Catalog::list_tables`: the table names in order. -/
def listTables (catalog : Catalog) : List String := catalog.keys

/-- `Catalog::load_tables`. -/
def loadTables (catalog : Catalog) (tables : List TableSchema) : Catalog :=
  tables.foldl (fun catalog table => catalog.insert table.name table) catalog

/-- `Catalog::snapshot`: the schemas in the order of their names. Every entry
is stored under its schema's name. -/
def snapshot (catalog : Catalog) : List TableSchema := catalog.toList.map Prod.snd

/-- `Catalog::add_index`. -/
def addIndex (catalog : Catalog) (table : String) (index : IndexMeta) : Except Failure Catalog :=
  match catalog[table]? with
  | none => .error (.error (.tableNotFound table))
  | some schema =>
      if schema.indexes.any (·.name = index.name) then .error (.error (.indexExists index.name))
      else .ok (catalog.insert table { schema with indexes := schema.indexes ++ [index] })

/-- `Catalog::column_index`. -/
def columnIndex (schema : TableSchema) (column : String) : Option Nat :=
  schema.columns.findIdx? fun c => eqIgnoreAsciiCase c.name column

end Catalog

end MoodengSQL
