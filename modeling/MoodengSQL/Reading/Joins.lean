import MoodengSQL.Foundation.Choices
import MoodengSQL.Reading.IndexScan

/-!
# Joins

The join loop evaluates each condition on the rows of the tables so far, under
the names of their columns. A name is resolved to its first position, which
appending columns does not move, so a condition that evaluates there has the same
value on the full row, and the loop yields the choices of one row from each
table that satisfy every condition.
-/

namespace MoodengSQL

open Foundation Foundation.Effect

section Appending

variable [Runtime] {row more : List Value} {columns moreColumns : List String}

omit [Runtime] in
/-- A sequence whose first part keeps its result keeps its own. -/
theorem bind_eq_ok_of_imp {ε α β : Type} {m m' : Except ε α} {f : α → Except ε β} {b : β}
    (kept : ∀ a, m = .ok a → m' = .ok a) (ran : (m >>= f) = .ok b) : (m' >>= f) = .ok b := by
  obtain ⟨a, first, later⟩ := except_bind_eq_ok.mp ran
  exact except_bind_eq_ok.mpr ⟨a, kept a first, later⟩

omit [Runtime] in
/-- A name that is found keeps its value when columns are appended. -/
theorem columnValue_append {column : String} {value : Value} (arity : row.length = columns.length)
    (found : columnValue column row columns = .ok value) :
    columnValue column (row ++ more) (columns ++ moreColumns) = .ok value := by
  unfold columnValue at found ⊢
  dsimp only at found ⊢
  split at found
  · rename_i index position
    have inside : index < row.length := by
      obtain ⟨bound, -, -⟩ := List.findIdx?_eq_some_iff_getElem.mp position
      omega
    simp only [List.findIdx?_append, position, Option.some_or]
    rw [List.getD_append _ _ _ _ inside]
    exact found
  · exact nomatch found

/-- **An expression that evaluates on a row has the same value on a longer one.** -/
theorem evalExpr_append {expr : Expr} {value : Value} (arity : row.length = columns.length)
    (evaluates : evalExpr expr row columns = .ok value) :
    evalExpr expr (row ++ more) (columns ++ moreColumns) = .ok value := by
  unfold evalExpr at evaluates ⊢
  induction expr generalizing value with
  | value v => exact evaluates
  | identifier name => exact columnValue_append arity evaluates
  | compoundIdentifier parts =>
      unfold evalExprWithExcluded at evaluates ⊢
      split_ifs at evaluates ⊢
      · cases evaluates
      · exact columnValue_append arity evaluates
  | binaryOp left op right leftIh rightIh =>
      unfold evalExprWithExcluded at evaluates ⊢
      obtain ⟨l, leftOk, later⟩ := except_bind_eq_ok.mp evaluates
      exact except_bind_eq_ok.mpr
        ⟨l, leftIh leftOk, bind_eq_ok_of_imp (fun _ => rightIh) later⟩
  | unaryOp op operand ih => exact bind_eq_ok_of_imp (fun _ => ih) evaluates
  | isNull operand ih => exact bind_eq_ok_of_imp (fun _ => ih) evaluates
  | isNotNull operand ih => exact bind_eq_ok_of_imp (fun _ => ih) evaluates
  | nested operand ih => exact ih evaluates
  | function name first ih =>
      unfold evalExprWithExcluded at evaluates ⊢
      dsimp only at evaluates ⊢
      split_ifs at evaluates ⊢
      · exact evaluates
      · exact bind_eq_ok_of_imp (fun _ => ih) evaluates
      · exact bind_eq_ok_of_imp (fun _ => ih) evaluates
      · exact evaluates
  | functionArgs name args => exact evaluates
  | other => exact evaluates

theorem evalWhere_append {condition : Expr} {keep : Bool} (arity : row.length = columns.length)
    (evaluates : evalWhere condition row columns = .ok keep) :
    evalWhere condition (row ++ more) (columns ++ moreColumns) = .ok keep :=
  bind_eq_ok_of_imp (fun _ => evalExpr_append arity) evaluates

end Appending

section Tables

variable {db : Database}

/-- The values of a table's rows, in scan order. -/
def tableValues (db : Database) (table : String) : List (List Value) :=
  (db.storage.scan table).map fun entry => entry.2.values

/-- The columns of a table under the names a join knows them by. -/
def tableColumns (db : Database) (table : String) : List String :=
  match db.catalog.getTable table with
  | .ok schema => qualifiedColumns table schema
  | .error _ => []

/-- The table exists, and its rows have one value for each column. -/
def HasArity (db : Database) (table : String) : Prop :=
  ∃ schema, db.catalog.getTable table = .ok schema ∧
    ∀ values ∈ tableValues db table, values.length = schema.columns.length

/-- The tables of a `FROM` item, in the order they are joined. -/
def TableWithJoins.tables (item : TableWithJoins) : List String :=
  item.relation.name :: item.joins.map fun join => join.relation.name

/-- The conditions of inner joins. -/
def joinConditions (joins : List Join) : List Expr :=
  joins.filterMap fun join => match join.joinOperator with
    | .innerOn condition => some condition
    | _ => none

/-- The columns of tables joined in this order. -/
def joinedColumns (db : Database) (tables : List String) : List String :=
  tables.flatMap (tableColumns db)

/-- The ways to choose a row from each table. -/
def combinations (db : Database) (tables : List String) : List (List (List Value)) :=
  choices (tables.map (tableValues db))

theorem HasArity.columns_length {table : String} (arity : HasArity db table) :
    ∀ values ∈ tableValues db table, values.length = (tableColumns db table).length := by
  obtain ⟨schema, known, lengths⟩ := arity
  intro values member
  simp only [tableColumns, known, qualifiedColumns, List.length_map]
  exact lengths values member

theorem HasArity.of_colNames {table : String} {names : List String}
    (known : db.catalog[table]?.map TableSchema.colNames = some names)
    (lengths : ∀ values ∈ tableValues db table, values.length = names.length) :
    HasArity db table := by
  obtain ⟨schema, listed, rfl⟩ := Option.map_eq_some_iff.mp known
  refine ⟨schema, getTable_eq_ok.mpr listed, ?_⟩
  simpa only [TableSchema.colNames, List.length_map] using lengths

/-- A combination has one value for each joined column. -/
theorem flatten_length {tables : List String} (arity : ∀ table ∈ tables, HasArity db table)
    {pick : List (List Value)} (chosen : pick ∈ combinations db tables) :
    pick.flatten.length = (joinedColumns db tables).length := by
  unfold combinations at chosen
  induction tables generalizing pick with
  | nil =>
      rw [List.map_nil, choices_nil, List.mem_singleton] at chosen
      subst chosen
      rfl
  | cons table rest ih =>
      rw [List.map_cons, choices_cons, List.mem_flatMap] at chosen
      obtain ⟨values, member, below⟩ := chosen
      obtain ⟨tail, chosen, rfl⟩ := List.mem_map.mp below
      have later := ih (fun other inside => arity other (List.mem_cons_of_mem _ inside)) chosen
      have first := (arity table List.mem_cons_self).columns_length values member
      simp only [List.flatten_cons, List.length_append, joinedColumns, List.flatMap_cons,
        later, first]

theorem joinedColumns_concat (tables : List String) (table : String) :
    joinedColumns db (tables ++ [table]) = joinedColumns db tables ++ tableColumns db table := by
  simp only [joinedColumns, List.flatMap_append, List.flatMap_cons, List.flatMap_nil,
    List.append_nil]

theorem combinations_concat (tables : List String) (table : String) :
    combinations db (tables ++ [table]) =
      (combinations db tables).flatMap fun pick =>
        (tableValues db table).map fun values => pick ++ [values] := by
  simp only [combinations, List.map_append, List.map_cons, List.map_nil, choices_concat]

theorem flatten_concat (pick : List (List Value)) (values : List Value) :
    (pick ++ [values]).flatten = pick.flatten ++ values := by
  simp only [List.flatten_append, List.flatten_cons, List.flatten_nil, List.append_nil]

variable [Runtime]

/-- A condition evaluates without error on every combination of rows. -/
def EvaluatesOn (db : Database) (tables : List String) (condition : Expr) : Prop :=
  ∀ pick ∈ combinations db tables,
    ∃ keep, evalWhere condition pick.flatten (joinedColumns db tables) = .ok keep

/-- The combinations that satisfy every condition. -/
def selected (db : Database) (tables : List String) (conditions : List Expr) :
    List (List (List Value)) :=
  (combinations db tables).filter fun pick =>
    conditions.all (satisfied (joinedColumns db tables) pick.flatten)

/-- The prefix of `select_join` before `finalize_select`: the combined columns
and the rows it passes on. -/
def joinRows (db : Database) (select : Select) (item : TableWithJoins) :
    Except Failure (List String × List Row) := do
  let leftTable := item.relation.name
  let leftSchema ← db.catalog.getTable leftTable
  let leftRows := (db.storage.scan leftTable).map fun entry => Row.new entry.2.values
  let (colNames, joined) ←
    joinTables db (qualifiedColumns leftTable leftSchema) leftRows item.joins
  let rows ← filterRows select.selection colNames joined
  .ok (colNames, rows)

/-- `select_join` finishes what its join loop and its `WHERE` loop pass on. -/
theorem selectJoin_eq (query : Query) (select : Select) (item : TableWithJoins) :
    selectJoin db query select item =
      (joinRows db select item >>= fun passed =>
        finalizeSelect query select
          (if hasWildcard select.projection then passed.1
            else selectItemsToColumns select.projection) passed.2 passed.1) := by
  unfold selectJoin joinRows
  dsimp only
  cases db.catalog.getTable item.relation.name with
  | error failure => rfl
  | ok schema =>
      dsimp only [bind, Except.bind]
      cases joinTables db (qualifiedColumns item.relation.name schema) _ item.joins with
      | error failure => rfl
      | ok joined =>
          dsimp only
          cases filterRows select.selection joined.1 joined.2 <;> rfl

/-- A condition on the tables so far is unmoved by the next one. -/
theorem satisfied_concat {tables : List String} (arity : ∀ table ∈ tables, HasArity db table)
    {condition : Expr} (evaluates : EvaluatesOn db tables condition)
    {pick : List (List Value)} (chosen : pick ∈ combinations db tables)
    (table : String) (values : List Value) :
    evalWhere condition (pick ++ [values]).flatten (joinedColumns db (tables ++ [table])) =
      evalWhere condition pick.flatten (joinedColumns db tables) := by
  obtain ⟨keep, evaluated⟩ := evaluates pick chosen
  rw [flatten_concat, joinedColumns_concat, evaluated]
  exact evalWhere_append (flatten_length arity chosen) evaluated

theorem EvaluatesOn.concat {tables : List String} (arity : ∀ table ∈ tables, HasArity db table)
    {condition : Expr} (evaluates : EvaluatesOn db tables condition) (table : String) :
    EvaluatesOn db (tables ++ [table]) condition := by
  intro longer member
  rw [combinations_concat, List.mem_flatMap] at member
  obtain ⟨pick, chosen, below⟩ := member
  obtain ⟨values, -, rfl⟩ := List.mem_map.mp below
  rw [satisfied_concat arity evaluates chosen]
  exact evaluates pick chosen

/-- Joining one more table under its condition. -/
theorem selected_concat {tables : List String} (arity : ∀ table ∈ tables, HasArity db table)
    {conditions : List Expr} (evaluate : ∀ condition ∈ conditions, EvaluatesOn db tables condition)
    (table : String) (condition : Expr) :
    selected db (tables ++ [table]) (conditions ++ [condition]) =
      (selected db tables conditions).flatMap fun pick =>
        ((tableValues db table).filter fun values =>
          satisfied (joinedColumns db (tables ++ [table])) (pick.flatten ++ values)
            condition).map fun values => pick ++ [values] := by
  unfold selected
  rw [combinations_concat, List.filter_flatMap, flatMap_filter]
  apply List.flatMap_congr
  intro pick chosen
  have unmoved : ∀ values, conditions.all
      (satisfied (joinedColumns db (tables ++ [table])) (pick.flatten ++ values)) =
        conditions.all (satisfied (joinedColumns db tables) pick.flatten) := by
    intro values
    rw [Bool.eq_iff_iff, List.all_eq_true, List.all_eq_true]
    refine forall₂_congr fun earlier member => ?_
    rw [satisfied, satisfied, ← flatten_concat,
      satisfied_concat arity (evaluate earlier member) chosen]
  simp only [List.filter_map, Function.comp_def, List.all_append, flatten_concat, unmoved,
    List.all_cons, List.all_nil, Bool.and_true]
  cases conditions.all (satisfied (joinedColumns db tables) pick.flatten) with
  | true => simp only [Bool.true_and, if_true]
  | false => simp only [Bool.false_and, List.filter_false, List.map_nil, Bool.false_eq_true,
      if_false]

/-- The inner loop over a table whose condition is decided on every row. -/
theorem joinRow_ok {condition : Expr} {columns : List String} {left : Row}
    {entries : List (Nat × Row)}
    (decided : ∀ entry ∈ entries,
      ∃ keep, evalWhere condition (left.values ++ entry.2.values) columns = .ok keep) :
    joinRow condition columns left entries = .ok
      (((entries.map fun entry => entry.2.values).filter fun values =>
        satisfied columns (left.values ++ values) condition).map fun values =>
          Row.new (left.values ++ values)) := by
  induction entries with
  | nil => rfl
  | cons entry rest ih =>
      obtain ⟨keep, first⟩ := decided entry List.mem_cons_self
      have later := ih fun other member => decided other (List.mem_cons_of_mem _ member)
      simp only [joinRow, first, later, bind, Except.bind, List.map_cons, List.filter_cons,
        satisfied_of_ok first]
      cases keep <;> rfl

/-- The row of a combination. -/
def combinedRow (pick : List (List Value)) : Row := Row.new pick.flatten

/-- One turn of the join loop. -/
theorem joinStep_ok {tables : List String} {conditions : List Expr} {table : String}
    {condition : Expr}
    (evaluates : EvaluatesOn db (tables ++ [table]) condition) :
    ((selected db tables conditions).map combinedRow).mapM (fun row =>
        joinRow condition (joinedColumns db (tables ++ [table])) row (db.storage.scan table)) =
      .ok ((selected db tables conditions).map fun pick =>
        ((tableValues db table).filter fun values =>
          satisfied (joinedColumns db (tables ++ [table])) (pick.flatten ++ values)
            condition).map fun values => combinedRow (pick ++ [values])) := by
  rw [except_mapM_eq_ok, List.forall₂_map_left_iff, List.forall₂_map_right_iff,
    List.forall₂_same]
  intro pick member
  have chosen : pick ∈ combinations db tables := List.mem_of_mem_filter member
  simp only [combinedRow, flatten_concat]
  apply joinRow_ok
  intro entry inside
  obtain ⟨keep, evaluated⟩ := evaluates (pick ++ [entry.2.values]) (by
    rw [combinations_concat, List.mem_flatMap]
    exact ⟨pick, chosen, List.mem_map.mpr
      ⟨entry.2.values, List.mem_map.mpr ⟨entry, inside, rfl⟩, rfl⟩⟩)
  exact ⟨keep, by rw [← evaluated, flatten_concat]; rfl⟩

/-- **The join loop.** From the selected combinations of the tables so far it
goes on to those of all tables, under the conditions of all joins. -/
theorem joinTables_ok {joins : List Join}
    (inner : ∀ join ∈ joins, ∃ condition, join.joinOperator = .innerOn condition)
    {tables : List String} (arity : ∀ table ∈ tables, HasArity db table)
    (later : ∀ join ∈ joins, HasArity db join.relation.name)
    {conditions : List Expr} (evaluate : ∀ condition ∈ conditions, EvaluatesOn db tables condition)
    (evaluates : ∀ k condition, (joinConditions joins)[k]? = some condition →
      EvaluatesOn db (tables ++ (joins.map fun join => join.relation.name).take (k + 1))
        condition) :
    joinTables db (joinedColumns db tables) ((selected db tables conditions).map combinedRow)
        joins =
      .ok (joinedColumns db (tables ++ joins.map fun join => join.relation.name),
        (selected db (tables ++ joins.map fun join => join.relation.name)
          (conditions ++ joinConditions joins)).map combinedRow) := by
  induction joins generalizing tables conditions with
  | nil => simp only [joinTables, List.map_nil, List.append_nil, joinConditions,
      List.filterMap_nil]
  | cons join rest ih =>
      obtain ⟨condition, operator⟩ := inner join List.mem_cons_self
      have parsed : parseInnerJoin join = .ok (join.relation.name, condition) := by
        simp only [parseInnerJoin, operator]
      have first : joinConditions (join :: rest) = condition :: joinConditions rest := by
        simp only [joinConditions, List.filterMap_cons, operator]
      have here := later join List.mem_cons_self
      obtain ⟨schema, known, lengths⟩ := id here
      have columns : joinedColumns db tables ++ qualifiedColumns join.relation.name schema =
          joinedColumns db (tables ++ [join.relation.name]) := by
        simp only [joinedColumns_concat, tableColumns, known]
      have decided : EvaluatesOn db (tables ++ [join.relation.name]) condition :=
        evaluates 0 condition (by rw [first]; rfl)
      have shifted : ∀ k condition, (joinConditions rest)[k]? = some condition →
          EvaluatesOn db (tables ++ [join.relation.name] ++
            (rest.map fun join => join.relation.name).take (k + 1)) condition := by
        intro k condition found
        have shifted := evaluates (k + 1) condition (by rw [first]; exact found)
        simpa only [List.map_cons, List.take_succ_cons, List.append_assoc,
          List.singleton_append] using shifted
      have goOn := ih (fun next member => inner next (List.mem_cons_of_mem _ member))
        (List.forall_mem_append.mpr ⟨arity, List.forall_mem_singleton.mpr here⟩)
        (fun next member => later next (List.mem_cons_of_mem _ member))
        (List.forall_mem_append.mpr
          ⟨fun earlier member => (evaluate earlier member).concat arity _,
            List.forall_mem_singleton.mpr decided⟩) shifted
      rw [selected_concat arity evaluate, List.map_flatMap] at goOn
      simp only [List.map_map, List.append_assoc, List.singleton_append] at goOn
      simp only [joinTables, parsed, known, bind, Except.bind, columns, joinStep_ok decided]
      rw [first, List.map_cons]
      exact goOn

theorem filterRows_none (columns : List String) (rows : List Row) :
    filterRows none columns rows = .ok rows := by
  induction rows with
  | nil => rfl
  | cons row rest ih => simp only [filterRows, bind, Except.bind, ih, if_true]

/-- The `WHERE` loop is one more condition on the full combinations. -/
theorem filterRows_selected {tables : List String} (conditions : List Expr)
    {selection : Option Expr}
    (evaluates : ∀ condition, selection = some condition → EvaluatesOn db tables condition) :
    filterRows selection (joinedColumns db tables) ((selected db tables conditions).map combinedRow) =
      .ok ((selected db tables (conditions ++ selection.toList)).map combinedRow) := by
  cases selection with
  | none => rw [filterRows_none, Option.toList_none, List.append_nil]
  | some condition =>
      have decided : ∀ row ∈ (selected db tables conditions).map combinedRow,
          evalWhere condition row.values (joinedColumns db tables) =
            .ok (satisfied (joinedColumns db tables) row.values condition) := by
        intro row member
        obtain ⟨pick, chosen, rfl⟩ := List.mem_map.mp member
        obtain ⟨keep, evaluated⟩ := evaluates condition rfl pick (List.mem_of_mem_filter chosen)
        exact evaluated.trans (congrArg Except.ok (satisfied_of_ok evaluated).symm)
      rw [filterRows_eq decided]
      simp only [List.filter_map, selected, List.filter_filter, Function.comp_def, combinedRow,
        Row.new, Option.toList_some, List.all_append, List.all_cons, List.all_nil, Bool.and_true]
      simp only [Bool.and_comm]

/-- What a join passes on. -/
theorem joinRows_ok {select : Select} {item : TableWithJoins}
    (inner : ∀ join ∈ item.joins, ∃ condition, join.joinOperator = .innerOn condition)
    (arity : ∀ table ∈ item.tables, HasArity db table)
    (conditions : ∀ k condition, (joinConditions item.joins)[k]? = some condition →
      EvaluatesOn db (item.tables.take (k + 2)) condition)
    (selection : ∀ condition, select.selection = some condition →
      EvaluatesOn db item.tables condition) :
    joinRows db select item = .ok (joinedColumns db item.tables,
      (selected db item.tables (joinConditions item.joins ++ select.selection.toList)).map
        combinedRow) := by
  have left : ∀ table ∈ [item.relation.name], HasArity db table :=
    List.forall_mem_singleton.mpr (arity _ List.mem_cons_self)
  obtain ⟨schema, known, -⟩ := arity item.relation.name List.mem_cons_self
  have columns : qualifiedColumns item.relation.name schema =
      joinedColumns db [item.relation.name] := by
    simp only [joinedColumns, List.flatMap_cons, List.flatMap_nil, List.append_nil, tableColumns,
      known]
  have start : (db.storage.scan item.relation.name).map (fun entry => Row.new entry.2.values) =
      (selected db [item.relation.name] []).map combinedRow := by
    simp only [selected, List.all_nil, List.filter_true, combinations, List.map_cons, List.map_nil,
      choices_cons, choices_nil, ← List.map_eq_flatMap, tableValues, List.map_map,
      Function.comp_def, combinedRow, List.flatten_cons, List.flatten_nil,
      List.append_nil]
  have none : ∀ condition ∈ ([] : List Expr), EvaluatesOn db [item.relation.name] condition :=
    fun _ member => absurd member List.not_mem_nil
  have looped := joinTables_ok inner left
    (fun join member => arity _ (List.mem_cons_of_mem _ (List.mem_map_of_mem member)))
    none conditions
  unfold joinRows
  simp only [known, bind, Except.bind, columns, start, looped, List.nil_append,
    List.singleton_append]
  have filtered := filterRows_selected (joinConditions item.joins) selection
  rw [TableWithJoins.tables] at filtered ⊢
  rw [filtered]

/-- **A multi-way join is the filtered cross product.** When each condition
evaluates on every combination of rows of the tables joined so far, and the
`WHERE` on every full combination, the rows passed on are the concatenations of
one row from each table, in lexicographic order of the tables' row order, on
which all conditions and the `WHERE` are true under the full list of columns. -/
theorem join_is_filtered_product (query : Query) {select : Select} {item : TableWithJoins}
    (inner : ∀ join ∈ item.joins, ∃ condition, join.joinOperator = .innerOn condition)
    (arity : ∀ table ∈ item.tables, HasArity db table)
    (conditions : ∀ k condition, (joinConditions item.joins)[k]? = some condition →
      EvaluatesOn db (item.tables.take (k + 2)) condition)
    (selection : ∀ condition, select.selection = some condition →
      EvaluatesOn db item.tables condition) :
    ∃ picks : List (List (List Value × Nat)),
      picks.Pairwise (List.Lex fun left right => left.2 < right.2) ∧
      (∀ pick, pick ∈ picks ↔
        List.Forall₂ (fun row table => (tableValues db table)[row.2]? = some row.1) pick
          item.tables ∧
        ∀ condition ∈ joinConditions item.joins ++ select.selection.toList,
          evalWhere condition (pick.flatMap Prod.fst) (joinedColumns db item.tables) =
            .ok true) ∧
      joinRows db select item = .ok (joinedColumns db item.tables,
        picks.map fun pick => Row.new (pick.flatMap Prod.fst)) ∧
      selectJoin db query select item =
        finalizeSelect query select
          (if hasWildcard select.projection then joinedColumns db item.tables
            else selectItemsToColumns select.projection)
          (picks.map fun pick => Row.new (pick.flatMap Prod.fst))
          (joinedColumns db item.tables) := by
  let all := joinConditions item.joins ++ select.selection.toList
  let numbered := item.tables.map fun table => (tableValues db table).zipIdx
  let picks := (choices numbered).filter fun pick =>
    all.all (satisfied (joinedColumns db item.tables) (pick.flatMap Prod.fst))
  have forget : selected db item.tables all = picks.map (List.map Prod.fst) := by
    have unnumbered : numbered.map (List.map Prod.fst) = item.tables.map (tableValues db) := by
      simp only [numbered, List.map_map, Function.comp_def, List.zipIdx_map_fst]
    rw [selected, combinations, ← unnumbered, choices_map, List.filter_map]
    rfl
  have rows : (selected db item.tables all).map combinedRow =
      picks.map fun pick => Row.new (pick.flatMap Prod.fst) := by
    rw [forget, List.map_map]
    rfl
  have passed := joinRows_ok inner arity conditions selection
  rw [rows] at passed
  refine ⟨picks, ?_, fun pick => ?_, passed, ?_⟩
  · apply List.Pairwise.filter
    apply pairwise_choices
    intro entries member
    obtain ⟨table, -, rfl⟩ := List.mem_map.mp member
    rw [← List.pairwise_map (f := Prod.snd) (R := (· < ·)), List.zipIdx_map_snd]
    exact List.pairwise_lt_range'
  · simp only [picks, numbered, List.mem_filter, mem_choices, List.forall₂_map_right_iff,
      List.mem_zipIdx_iff_getElem?, List.all_eq_true, satisfied_eq_true, all]
  · rw [selectJoin_eq, passed]
    rfl

end Tables

/-- A second table, of numbers of the first one. -/
def createU : Statement := .createTable ["u"] [⟨"t", .int, []⟩] []

/-- `INSERT INTO u VALUES (2), (3)`. -/
def insertU : Statement :=
  .insert ⟨["u"], [],
    some ⟨.values [[.value (.number "2")], [.value (.number "3")]], none, none, none⟩, none⟩

/-- `t JOIN u ON t.id = u.t`. -/
def tJoinU : TableWithJoins :=
  ⟨.table ["t"], [⟨.table ["u"], .innerOn
    (.binaryOp (.compoundIdentifier ["t", "id"]) .eq (.compoundIdentifier ["u", "t"]))⟩]⟩

/-- `SELECT * … WHERE u.t IS NOT NULL`. -/
def allNotNull : Select :=
  ⟨[.wildcard], [tJoinU], some (.isNotNull (.compoundIdentifier ["u", "t"])), .expressions []⟩

/-- A join of two tables with two rows each. -/
theorem join_is_filtered_product_two : ∃ s : Executor,
    @runStatements Runtime.reference ddlOutside .fresh
      [createT, insertT [1, 2], createU, insertU] = some s ∧
    ∃ picks : List (List (List Value × Nat)),
      picks.Pairwise (List.Lex fun left right => left.2 < right.2) ∧
      (∀ pick, pick ∈ picks ↔
        List.Forall₂ (fun row table => (tableValues s.toDatabase table)[row.2]? = some row.1) pick
          tJoinU.tables ∧
        ∀ condition ∈ joinConditions tJoinU.joins ++ allNotNull.selection.toList,
          @evalWhere Runtime.reference condition (pick.flatMap Prod.fst)
            (joinedColumns s.toDatabase tJoinU.tables) = .ok true) ∧
      @joinRows Runtime.reference s.toDatabase allNotNull tJoinU =
        .ok (joinedColumns s.toDatabase tJoinU.tables,
          picks.map fun pick => Row.new (pick.flatMap Prod.fst)) ∧
      @selectJoin Runtime.reference s.toDatabase ⟨.select allNotNull, none, none, none⟩ allNotNull
          tJoinU =
        @finalizeSelect Runtime.reference ⟨.select allNotNull, none, none, none⟩ allNotNull
          (joinedColumns s.toDatabase tJoinU.tables)
          (picks.map fun pick => Row.new (pick.flatMap Prod.fst))
          (joinedColumns s.toDatabase tJoinU.tables) := by
  let _ := Runtime.reference
  obtain ⟨s, ran⟩ : ∃ s, runStatements ddlOutside .fresh
      [createT, insertT [1, 2], createU, insertU] = some s :=
    Option.isSome_iff_exists.mp (by decide +kernel)
  have computed : (runStatements ddlOutside .fresh
      [createT, insertT [1, 2], createU, insertU]).map (fun s => ["t", "u"].map fun table =>
        (s.catalog[table]?.map TableSchema.colNames, tableValues s.toDatabase table,
          tableColumns s.toDatabase table)) =
      some [(some ["id"], [[.int4 1], [.int4 2]], ["t.id"]),
        (some ["t"], [[.int4 2], [.int4 3]], ["u.t"])] := by
    decide +kernel
  rw [ran] at computed
  simp only [Option.map_some, Option.some.injEq, List.map_cons, List.map_nil, List.cons.injEq,
    Prod.mk.injEq, and_true] at computed
  obtain ⟨⟨knownT, rowsT, columnsT⟩, knownU, rowsU, columnsU⟩ := computed
  have left : HasArity s.toDatabase "t" := .of_colNames knownT (by rw [rowsT]; decide)
  have right : HasArity s.toDatabase "u" := .of_colNames knownU (by rw [rowsU]; decide)
  have arity : ∀ table ∈ tJoinU.tables, HasArity s.toDatabase table :=
    List.forall_mem_cons.mpr ⟨left, List.forall_mem_singleton.mpr right⟩
  have rows : combinations s.toDatabase tJoinU.tables =
      choices [[[.int4 1], [.int4 2]], [[.int4 2], [.int4 3]]] := by
    rw [← rowsT, ← rowsU]
    rfl
  have columns : joinedColumns s.toDatabase tJoinU.tables = ["t.id", "u.t"] := by
    change tableColumns s.toDatabase "t" ++ (tableColumns s.toDatabase "u" ++ []) = _
    rw [columnsT, columnsU]
    rfl
  have evaluates : ∀ condition ∈ joinConditions tJoinU.joins ++ allNotNull.selection.toList,
      EvaluatesOn s.toDatabase tJoinU.tables condition := by
    unfold EvaluatesOn
    rw [rows, columns]
    decide +kernel
  refine ⟨s, ran, join_is_filtered_product _ ?_ arity ?_ ?_⟩
  · intro join member
    rw [List.mem_singleton.mp member]
    exact ⟨_, rfl⟩
  · intro k condition found
    rw [List.take_of_length_le (Nat.le_add_left 2 k)]
    exact evaluates condition (List.mem_append_left _ (List.mem_of_getElem? found))
  · intro condition selection
    exact evaluates condition (List.mem_append_right _ (Option.mem_toList.mpr selection))

end MoodengSQL
