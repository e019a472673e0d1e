import MoodengSQL.Evaluation.Logic
import MoodengSQL.Foundation.Partition
import MoodengSQL.Reading.Grouping

/-!
# The key of a group

`apply_group_by` keys a row by the display texts of its values, joined by U+001F.
Texts that are joined or displayed as other values are fall into their groups.
-/

namespace MoodengSQL

open Foundation Foundation.Effect

section Keys

variable [Runtime] {exprs : List Expr} {colNames : List String} {rows : List Row}

/-- The values of the group expressions on a row. -/
def groupingValues (exprs : List Expr) (colNames : List String) (row : Row) : List Value :=
  (exprs.mapM fun expr => evalExpr expr row.values colNames).toOption.getD []

/-- What a row's values stand for: integers are the same by value, null is the same as
null only. -/
def groupingData (exprs : List Expr) (colNames : List String) (row : Row) : List Datum :=
  (groupingValues exprs colNames row).map Value.datum

/-- The display texts of the values, cut at U+001F. -/
def displayPieces (values : List Value) : List (List Char) :=
  values.flatMap fun value => value.toDisplayString.toList.splitOn '\x1f'

/-- The row a group becomes. -/
def groupOutput (items : List SelectItem) (colNames : List String) (members : List Row) :
    Except Failure Row :=
  match hasWildcard items, members with
  | true, first :: _ => .ok (Row.new first.values)
  | _, _ => (groupValues items members colNames).map Row.new

/-- Values that stand for the same are displayed alike. -/
theorem toDisplayString_congr {u v : Value} (same : u.datum = v.datum) :
    u.toDisplayString = v.toDisplayString := by
  cases u <;> cases v <;> simp_all [Value.datum, Value.toDisplayString]

theorem displayPieces_congr {values values' : List Value}
    (same : values.map Value.datum = values'.map Value.datum) :
    displayPieces values = displayPieces values' := by
  induction values generalizing values' with
  | nil =>
      obtain rfl := List.map_eq_nil_iff.mp same.symm
      rfl
  | cons value rest ih =>
      obtain ⟨value', rest', rfl, first, later⟩ := List.map_eq_cons_iff.mp same.symm
      have displayed := toDisplayString_congr first
      unfold displayPieces at ih ⊢
      rw [List.flatMap_cons, List.flatMap_cons, displayed, ih later.symm]

/-- The joined texts of as many values are the same exactly if their pieces are. -/
theorem joined_eq_iff {values values' : List Value} (length : values.length = values'.length) :
    String.intercalate "\x1f" (values.map Value.toDisplayString) =
        String.intercalate "\x1f" (values'.map Value.toDisplayString) ↔
      displayPieces values = displayPieces values' := by
  have lists : ∀ values : List Value, (values.map Value.toDisplayString).map String.toList =
      values.map fun value => value.toDisplayString.toList := fun values => List.map_map
  rw [← String.toList_inj, String.toList_intercalate, String.toList_intercalate, lists, lists]
  cases values with
  | nil =>
      obtain rfl := List.eq_nil_of_length_eq_zero length.symm
      exact ⟨fun _ => rfl, fun _ => rfl⟩
  | cons value rest =>
      have nonempty : values' ≠ [] := by
        rintro rfl
        cases length
      refine (join_eq_iff '\x1f' (by simp) (by simpa using nonempty)).trans ?_
      rw [List.flatMap_map, List.flatMap_map]
      rfl

theorem groupingValues_of_ok {row : Row} {values : List Value}
    (ran : (exprs.mapM fun expr => evalExpr expr row.values colNames) = .ok values) :
    groupingValues exprs colNames row = values ∧ values.length = exprs.length ∧
      groupKey exprs row colNames =
        .ok (String.intercalate "\x1f" (values.map Value.toDisplayString)) := by
  refine ⟨by rw [groupingValues, ran]; rfl, ?_, by rw [groupKey, ran]; rfl⟩
  exact (except_mapM_eq_ok.mp ran).length_eq.symm

/-- The key of a row. -/
def joinedKey (exprs : List Expr) (colNames : List String) (row : Row) : String :=
  String.intercalate "\x1f" ((groupingValues exprs colNames row).map Value.toDisplayString)

/-- The groups of the loop are the classes of the keys. -/
theorem groupRows_partitions {key : Row → String}
    (keyed : ∀ row ∈ rows, groupKey exprs row colNames = .ok (key row)) :
    ∃ final, groupRows exprs colNames ∅ rows = .ok final ∧
      PartitionedBy key rows final.values := by
  obtain ⟨final, ran, found⟩ := groupRows_of_keys ∅ keyed
  have entries : ∀ k members, final[k]? = some members ↔
      rows.filter (key · = k) ≠ [] ∧ members = rows.filter (key · = k) := by
    intro k members
    rw [found k]
    split
    · rename_i none
      simp only [Std.ExtTreeMap.getElem?_empty, reduceCtorEq, ne_eq, none, not_true_eq_false,
        false_and]
    · rename_i inhabited
      rw [Std.ExtTreeMap.getD_empty, List.nil_append, Option.some.injEq]
      exact ⟨fun same => ⟨inhabited, same.symm⟩, fun same => same.2.symm⟩
  refine ⟨final, ran, ?_⟩
  have classes : final.values =
      (final.toList.map Prod.fst).map fun k => rows.filter (key · = k) := by
    rw [Map.values_eq, List.map_map]
    refine List.map_congr_left fun entry listed => ?_
    exact ((entries _ _).mp (Std.ExtTreeMap.mem_toList_iff_getElem?_eq_some.mp listed)).2
  rw [classes]
  refine partitionedBy_of_keys key ?_ fun row member => ?_
  · rw [List.Nodup, List.pairwise_map]
    refine Std.ExtTreeMap.distinct_keys_toList.imp fun differ same => differ ?_
    exact Std.compare_eq_iff_eq.mpr same
  · have nonempty : rows.filter (key · = key row) ≠ [] :=
      List.ne_nil_of_mem (List.mem_filter.mpr ⟨member, decide_eq_true rfl⟩)
    refine List.mem_map.mpr ⟨(key row, rows.filter (key · = key row)), ?_, rfl⟩
    exact Std.ExtTreeMap.mem_toList_iff_getElem?_eq_some.mpr ((entries _ _).mpr ⟨nonempty, rfl⟩)

/-- **Rows are grouped by value exactly if no two different ones are displayed alike.**
A query that groups or aggregates is answered by one row for each group, and any other
by its rows. -/
theorem groups_by_value_iff
    (evaluates : ∀ row ∈ rows, ∃ values,
      (exprs.mapM fun expr => evalExpr expr row.values colNames) = .ok values) :
    (∀ items, exprs = [] → isAggregateQuery items = false →
      applyGroupBy items exprs rows colNames = .ok ([], rows)) ∧
    ∃ groups,
      (∀ items, exprs ≠ [] ∨ isAggregateQuery items = true →
        ∃ columns, applyGroupBy items exprs rows colNames =
          (groups.mapM (groupOutput items colNames)).map fun result => (columns, result)) ∧
      (PartitionedBy (groupingData exprs colNames) rows groups ↔
        ∀ a ∈ rows, ∀ b ∈ rows,
          displayPieces (groupingValues exprs colNames a) =
            displayPieces (groupingValues exprs colNames b) →
          groupingData exprs colNames a = groupingData exprs colNames b) := by
  have keyed : ∀ row ∈ rows, groupKey exprs row colNames = .ok (joinedKey exprs colNames row) := by
    intro row member
    obtain ⟨values, ran⟩ := evaluates row member
    obtain ⟨same, -, key⟩ := groupingValues_of_ok ran
    rw [key, joinedKey, same]
  have length : ∀ row ∈ rows, (groupingValues exprs colNames row).length = exprs.length := by
    intro row member
    obtain ⟨values, ran⟩ := evaluates row member
    obtain ⟨same, length, -⟩ := groupingValues_of_ok ran
    rw [same, length]
  obtain ⟨final, ran, parts⟩ := groupRows_partitions keyed
  have ordered := (Runtime.hashOrder.perm "groups" final.values).symm
  refine ⟨fun items none plain => by rw [applyGroupBy, if_pos ⟨none, by rw [plain]; rfl⟩],
    Runtime.hashOrder.order "groups" final.values, fun items asked => ?_, ?_⟩
  · have grouped : ¬(exprs = [] ∧ !isAggregateQuery items) := by
      rintro ⟨none, plain⟩
      rcases asked with some | aggregated
      · exact some none
      · rw [aggregated] at plain
        cases plain
    exact ⟨_, by rw [applyGroupBy, if_neg grouped, ran]; rfl⟩
  · rw [(parts.perm ordered).iff_same_keys]
    constructor
    · intro agree a here b here' pieces
      apply (agree a here b here').mp
      exact (joined_eq_iff ((length a here).trans (length b here').symm)).mpr pieces
    · intro distinguished a here b here'
      rw [joinedKey, joinedKey, joined_eq_iff ((length a here).trans (length b here').symm)]
      exact ⟨distinguished a here b here', displayPieces_congr⟩

end Keys

/-- `SELECT COUNT(*) ... GROUP BY a` counts null and the text `NULL` as one group. -/
theorem null_grouped_with_text :
    @applyGroupBy Runtime.reference [.unnamedExpr (.functionArgs "COUNT" .wildcard) "COUNT(*)"]
        [.identifier "a"] [.new [.null], .new [.text "NULL"]] ["a"] =
      .ok (["COUNT(*)"], [.new [.int8 2]]) ∧
    @groupingData Runtime.reference [.identifier "a"] ["a"] (.new [.null]) ≠
      @groupingData Runtime.reference [.identifier "a"] ["a"] (.new [.text "NULL"]) := by
  decide +kernel

/-- Equal integers of different widths are in one group: `SELECT COUNT(*) ... GROUP BY a`
counts two rows with a 1, and one with a 2. -/
theorem groups_by_value_iff_integers : ∃ groups columns,
    @applyGroupBy Runtime.reference [.unnamedExpr (.functionArgs "COUNT" .wildcard) "COUNT(*)"]
        [.identifier "a"] [.new [.int4 1], .new [.int8 1], .new [.int4 2]] ["a"] =
      (groups.mapM (@groupOutput Runtime.reference
        [.unnamedExpr (.functionArgs "COUNT" .wildcard) "COUNT(*)"] ["a"])).map
          (fun result => (columns, result)) ∧
    @PartitionedBy _ _ (@groupingData Runtime.reference [.identifier "a"] ["a"])
      [.new [.int4 1], .new [.int8 1], .new [.int4 2]] groups := by
  let _ := Runtime.reference
  have evaluates : ∀ row ∈ [Row.new [.int4 1], .new [.int8 1], .new [.int4 2]], ∃ values,
      ([Expr.identifier "a"].mapM fun expr => evalExpr expr row.values ["a"]) = .ok values := by
    intro row member
    simp only [List.mem_cons, List.not_mem_nil, or_false] at member
    rcases member with rfl | rfl | rfl <;> exact ⟨_, rfl⟩
  obtain ⟨-, groups, applied, grouped⟩ := groups_by_value_iff evaluates
  obtain ⟨columns, counted⟩ := applied
    [.unnamedExpr (.functionArgs "COUNT" .wildcard) "COUNT(*)"] (.inl (by simp))
  exact ⟨groups, columns, counted, grouped.mpr (by decide +kernel)⟩

end MoodengSQL
