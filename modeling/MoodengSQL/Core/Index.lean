import MoodengSQL.Core.Catalog

/-!
# Indexes

Ordered indexes from keys to lists of row ids, and the manager that keeps the
indexes of every table in step with its rows. A key is the list of comparable
images of the indexed columns; images are ordered by kind first and then by
content, as the source derives it.
-/

namespace MoodengSQL

/-- The image of a value inside an index key. -/
inductive ComparableValue where
  | null
  | int (n : Int64)
  | float (bits : UInt64)
  | text (s : String)
  | bool (b : Bool)
  deriving DecidableEq, Repr

namespace ComparableValue

/-- The position of the variant in its declaration. -/
def rank : ComparableValue → Nat
  | null => 0
  | int _ => 1
  | float _ => 2
  | text _ => 3
  | bool _ => 4

/-- The numeric content. -/
def number : ComparableValue → Int
  | int n => n.toInt
  | float bits => bits.toNat
  | bool b => if b then 1 else 0
  | _ => 0

/-- The textual content. -/
def string : ComparableValue → String
  | text s => s
  | _ => ""

instance : Ord ComparableValue where
  compare := compareLex (compareOn rank) (compareLex (compareOn number) (compareOn string))

instance : Std.TransOrd ComparableValue :=
  inferInstanceAs (Std.TransCmp
    (compareLex (compareOn rank) (compareLex (compareOn number) (compareOn string))))

instance : Std.LawfulEqOrd ComparableValue where
  eq_of_compare := by
    intro a b same
    obtain ⟨sameRank, sameNumber, sameString⟩ :
        rank a = rank b ∧ number a = number b ∧ string a = string b := by
      change compareLex _ _ a b = .eq at same
      simpa [compareLex, compareOn, Ordering.then_eq_eq, compare_eq_iff_eq] using same
    cases a <;> cases b <;> simp_all [rank, number, string]
    · exact Int64.toInt_inj.mp sameNumber
    · exact UInt64.toNat_inj.mp sameNumber
    · rename_i left right
      cases left <;> cases right <;> simp_all

/-- `From<&Value> for ComparableValue`. -/
def ofValue : Value → ComparableValue
  | .null => .null
  | .int4 n => .int n.toInt64
  | .int8 n => .int n
  | .float4 bits => .float bits.toUInt64
  | .float8 bits => .float bits
  | .text s => .text s
  | .bool b => .bool b
  | .timestamp n => .int n
  | .json printed => .text printed

end ComparableValue

/-- Index keys. -/
abbrev IndexKey := List ComparableValue

/-- The key of a list of values. -/
def IndexKey.ofValues (values : List Value) : IndexKey := values.map ComparableValue.ofValue

/-- The values of the indexed columns of a row: each column is looked up by
name without regard to case, an unknown column reads the first value and a
missing value is null. -/
def keyValues (columns : List String) (rowValues : List Value) (columnNames : List String) :
    List Value :=
  columns.map fun column =>
    let index := (columnNames.findIdx? fun name => eqIgnoreAsciiCase name column).getD 0
    rowValues.getD index .null

/-- An index. No key has an empty entry, and a key of a unique index has a
single row id. -/
structure BTreeIndex where
  name : String
  columns : List String
  unique : Bool
  tree : Map IndexKey (List Nat)
  nonempty : ∀ key : IndexKey, tree[key]? ≠ some []
  single : unique → ∀ (key : IndexKey) (ids : List Nat), tree[key]? = some ids → ids.length ≤ 1

namespace BTreeIndex

/-- `BTreeIndex::new`. -/
def new (name : String) (columns : List String) (unique : Bool) : BTreeIndex where
  name := name
  columns := columns
  unique := unique
  tree := ∅
  nonempty := by simp
  single := by simp

/-- The index with a new entry for a key. -/
def setEntry (index : BTreeIndex) (key : IndexKey) (ids : List Nat) (present : ids ≠ [])
    (short : index.unique → ids.length ≤ 1) : BTreeIndex where
  name := index.name
  columns := index.columns
  unique := index.unique
  tree := index.tree.insert key ids
  nonempty := by
    intro other
    rw [Std.ExtTreeMap.getElem?_insert]
    split
    · simpa using present
    · exact index.nonempty other
  single := by
    intro unique other entry found
    rw [Std.ExtTreeMap.getElem?_insert] at found
    split at found
    · cases found
      exact short unique
    · exact index.single unique other entry found

/-- The index without an entry for a key. -/
def eraseEntry (index : BTreeIndex) (key : IndexKey) : BTreeIndex where
  name := index.name
  columns := index.columns
  unique := index.unique
  tree := index.tree.erase key
  nonempty := by
    intro other
    rw [Std.ExtTreeMap.getElem?_erase]
    split
    · simp
    · exact index.nonempty other
  single := by
    intro unique other entry found
    rw [Std.ExtTreeMap.getElem?_erase] at found
    split at found
    · cases found
    · exact index.single unique other entry found

/-- `BTreeIndex::insert`. -/
def insert (index : BTreeIndex) (values : List Value) (rowId : Nat) :
    Except Failure BTreeIndex :=
  let key := IndexKey.ofValues values
  if unique : index.unique then
    if key ∈ index.tree then
      .error (.error (.duplicateKey ("unique index '" ++ index.name ++ "' violation")))
    else .ok (index.setEntry key [rowId] (by simp) (by simp))
  else .ok (index.setEntry key (index.tree.getD key [] ++ [rowId]) (by simp)
    fun isUnique => absurd isUnique unique)

/-- `BTreeIndex::remove`. -/
def remove (index : BTreeIndex) (values : List Value) (rowId : Nat) : BTreeIndex :=
  let key := IndexKey.ofValues values
  match found : index.tree[key]? with
  | none => index
  | some ids =>
      if empty : ids.filter (· ≠ rowId) = [] then index.eraseEntry key
      else index.setEntry key (ids.filter (· ≠ rowId)) empty fun unique =>
        (List.length_filter_le _ _).trans (index.single unique key ids found)

/-- `BTreeIndex::lookup`. -/
def lookup (index : BTreeIndex) (values : List Value) : List Nat :=
  index.tree.getD (IndexKey.ofValues values) []

end BTreeIndex

/-- The indexes of one table by name. -/
abbrev TableIndexes := Map String BTreeIndex

/-- `IndexManager`: the indexes of every table. -/
abbrev IndexManager := Map String TableIndexes

namespace IndexManager

/-- `IndexManager::create_index`. -/
def createIndex (manager : IndexManager) (table : String) (index : BTreeIndex) :
    Except Failure IndexManager :=
  let indexes := manager.getD table ∅
  if index.name ∈ indexes then .error (.error (.indexExists index.name))
  else .ok (manager.insert table (indexes.insert index.name index))

/-- The loop of `IndexManager::insert_row` over the names still to visit. It
stops at the first refusal and keeps what it inserted before. -/
def insertEach (rowValues : List Value) (columnNames : List String) (rowId : Nat) :
    List String → TableIndexes → Except Failure Unit × TableIndexes
  | [], indexes => (.ok (), indexes)
  | name :: rest, indexes =>
      match indexes[name]? with
      | none => insertEach rowValues columnNames rowId rest indexes
      | some index =>
          match index.insert (keyValues index.columns rowValues columnNames) rowId with
          | .error e => (.error e, indexes)
          | .ok index' =>
              insertEach rowValues columnNames rowId rest (indexes.insert name index')

/-- `IndexManager::insert_row`. -/
def insertRow [Runtime] (manager : IndexManager) (table : String) (rowValues : List Value)
    (columnNames : List String) (rowId : Nat) : Except Failure Unit × IndexManager :=
  match manager[table]? with
  | none => (.ok (), manager)
  | some indexes =>
      let names := Runtime.hashOrder.order table indexes.keys
      let (result, indexes') := insertEach rowValues columnNames rowId names indexes
      (result, manager.insert table indexes')

/-- `IndexManager::remove_row`. -/
def removeRow (manager : IndexManager) (table : String) (rowValues : List Value)
    (columnNames : List String) (rowId : Nat) : IndexManager :=
  match manager[table]? with
  | none => manager
  | some indexes => manager.insert table (indexes.map fun _ index =>
      index.remove (keyValues index.columns rowValues columnNames) rowId)

/-- `IndexManager::lookup`. -/
def lookup (manager : IndexManager) (table indexName : String) (values : List Value) :
    List Nat :=
  match (manager.getD table ∅)[indexName]? with
  | some index => index.lookup values
  | none => []

/-- `IndexManager::find_index_for_column`: the first one-column index on the
column, in the map's iteration order. -/
def findIndexForColumn [Runtime] (manager : IndexManager) (table column : String) :
    Option String :=
  match manager[table]? with
  | none => none
  | some indexes =>
      ((Runtime.hashOrder.order table indexes.toList).find? fun entry =>
        match entry.2.columns with
        | [single] => eqIgnoreAsciiCase single column
        | _ => false).map Prod.fst

/-- `IndexManager::drop_table`. -/
def dropTable (manager : IndexManager) (table : String) : IndexManager := manager.erase table

end IndexManager

end MoodengSQL
