import MoodengSQL.Core.Query

/-!
# Comparing values

Values are compared in three places: `values_equal` and `compare_ints` decide the
operators of an expression, `compare_values` the order of rows. The operators know
no order on texts and booleans.
-/

namespace MoodengSQL

open Std

variable [Runtime] {left right : Value}

section Operators

theorem valuesEqual_of_asI64 {l r : Int} (leftInt : asI64 left = some l)
    (rightInt : asI64 right = some r) : valuesEqual left right = (l == r) := by
  cases left <;> cases leftInt <;> cases right <;> cases rightInt <;> rfl

theorem evalBinary_eq (left right : Value) :
    evalBinary left .eq right =
      .ok (.bool (if left.isNull || right.isNull then false else valuesEqual left right)) := by
  cases left <;> cases right <;> rfl

theorem evalBinary_eq_of_present (present : left ≠ .null) (present' : right ≠ .null) :
    evalBinary left .eq right = .ok (.bool (valuesEqual left right)) := by
  cases left <;> cases right <;> first | rfl | contradiction

theorem evalBinary_lt :
    evalBinary left .lt right = .ok (.bool (compareInts left right == some .lt)) := by
  cases left <;> cases right <;> rfl

theorem evalBinary_ltEq :
    evalBinary left .ltEq right = .ok (.bool ((compareInts left right).any (· != .gt))) := by
  cases left <;> cases right <;> rfl

theorem evalBinary_gt :
    evalBinary left .gt right = .ok (.bool (compareInts left right == some .gt)) := by
  cases left <;> cases right <;> rfl

theorem evalBinary_gtEq :
    evalBinary left .gtEq right = .ok (.bool ((compareInts left right).any (· != .lt))) := by
  cases left <;> cases right <;> rfl

end Operators

section Agreement

/-- The comparison is true. -/
def Compares (left : Value) (op : BinaryOperator) (right : Value) : Prop :=
  evalBinary left op right = .ok (.bool true)

/-- Exactly one of three statements is true. -/
def ExactlyOne (first second third : Prop) : Prop :=
  (first ∧ ¬second ∧ ¬third) ∨ (¬first ∧ second ∧ ¬third) ∨ (¬first ∧ ¬second ∧ third)

/-- The operators compare two values as sorting does: one of less, equal and
greater is true, the one that `compare_values` reports, `<=` and `>=` are the
disjunctions, and `WHERE` keeps a row whose column sorts before the bound. -/
structure ComparesAlike (left right : Value) : Prop where
  one : ExactlyOne (Compares left .lt right) (Compares left .eq right) (Compares left .gt right)
  lt : Compares left .lt right ↔ compareValues left right = .lt
  eq : Compares left .eq right ↔ compareValues left right = .eq
  gt : Compares left .gt right ↔ compareValues left right = .gt
  ltEq : Compares left .ltEq right ↔ Compares left .lt right ∨ Compares left .eq right
  gtEq : Compares left .gtEq right ↔ Compares left .gt right ∨ Compares left .eq right
  keeps : ∀ (column bound : Expr) (row : List Value) (colNames : List String),
    evalExpr column row colNames = .ok left → evalExpr bound row colNames = .ok right →
      evalWhere (.binaryOp column .lt bound) row colNames =
        .ok (compareValues left right == .lt)

theorem evalExpr_binaryOp {first second : Expr} {row : List Value} {colNames : List String}
    (op : BinaryOperator) (ran : evalExpr first row colNames = .ok left)
    (ran' : evalExpr second row colNames = .ok right) :
    evalExpr (.binaryOp first op second) row colNames = evalBinary left op right := by
  unfold evalExpr at ran ran' ⊢
  rw [evalExprWithExcluded, ran, ran']
  rfl

theorem evalWhere_binaryOp {column bound : Expr} {op : BinaryOperator} {row : List Value}
    {colNames : List String} {b : Bool} (first : evalExpr column row colNames = .ok left)
    (second : evalExpr bound row colNames = .ok right)
    (compared : evalBinary left op right = .ok (.bool b)) :
    evalWhere (.binaryOp column op bound) row colNames = .ok b := by
  unfold evalExpr at first second
  unfold evalWhere evalWhereWithExcluded
  rw [evalExprWithExcluded, first, second]
  simp only [bind, Except.bind, compared]

variable {i j : Int}

/-- Integers that sorting orders by value are compared alike. -/
theorem comparesAlike_of_ints (first : asI64 left = some i) (second : asI64 right = some j)
    (sorted : compareValues left right = compare i j) : ComparesAlike left right := by
  have present : left ≠ .null := by
    rintro rfl
    cases first
  have present' : right ≠ .null := by
    rintro rfl
    cases second
  have ints : compareInts left right = some (compare i j) := by
    rw [compareInts, first, second]
    rfl
  have same : valuesEqual left right = (i == j) := valuesEqual_of_asI64 first second
  have lt : evalBinary left .lt right = .ok (.bool (compare i j == .lt)) := by
    rw [evalBinary_lt, ints]
    rfl
  have eq : evalBinary left .eq right = .ok (.bool (compare i j == .eq)) := by
    have compared : (i == j) = (compare i j == .eq) := by
      by_cases equal : i = j <;> simp [equal]
    rw [evalBinary_eq_of_present present present', same, compared]
  have gt : evalBinary left .gt right = .ok (.bool (compare i j == .gt)) := by
    rw [evalBinary_gt, ints]
    rfl
  have ltEq : evalBinary left .ltEq right = .ok (.bool (compare i j != .gt)) := by
    rw [evalBinary_ltEq, ints]
    rfl
  have gtEq : evalBinary left .gtEq right = .ok (.bool (compare i j != .lt)) := by
    rw [evalBinary_gtEq, ints]
    rfl
  refine ⟨?_, ?_, ?_, ?_, ?_, ?_, fun column bound row colNames evaluated evaluated' => ?_⟩
  · unfold Compares ExactlyOne
    rw [lt, eq, gt]
    cases compare i j <;> simp
  · unfold Compares
    rw [lt, sorted]
    cases compare i j <;> simp
  · unfold Compares
    rw [eq, sorted]
    cases compare i j <;> simp
  · unfold Compares
    rw [gt, sorted]
    cases compare i j <;> simp
  · unfold Compares
    rw [ltEq, lt, eq]
    cases compare i j <;> simp
  · unfold Compares
    rw [gtEq, gt, eq]
    cases compare i j <;> simp
  · rw [sorted]
    exact evalWhere_binaryOp evaluated evaluated' lt

/-- Values that are no integers are not compared alike: none is less than another,
or less than or equal to one it equals. -/
theorem not_comparesAlike (other : compareInts left right = none) : ¬ComparesAlike left right := by
  intro alike
  have less : ¬Compares left .lt right := by
    unfold Compares
    rw [evalBinary_lt, other]
    simp
  have greater : ¬Compares left .gt right := by
    unfold Compares
    rw [evalBinary_gt, other]
    simp
  have notAbove : ¬Compares left .ltEq right := by
    unfold Compares
    rw [evalBinary_ltEq, other]
    simp
  rcases alike.one with ⟨lt, -, -⟩ | ⟨-, eq, -⟩ | ⟨-, -, gt⟩
  · exact less lt
  · exact notAbove (alike.ltEq.mpr (.inr eq))
  · exact greater gt

omit [Runtime] in
theorem compareInts_eq_none (kind : left.typeName ≠ DataType.int4.name)
    (kind' : left.typeName ≠ DataType.int8.name) : compareInts left right = none := by
  cases left with
  | int4 n => exact absurd rfl kind
  | int8 n => exact absurd rfl kind'
  | _ => rfl

omit [Runtime] in
theorem int4_of_typeName {value : Value} (kind : value.typeName = DataType.int4.name) :
    ∃ n, value = .int4 n := by
  cases value with
  | int4 n => exact ⟨n, rfl⟩
  | _ => exact absurd kind (by simp [Value.typeName, DataType.name])

omit [Runtime] in
theorem int8_of_typeName {value : Value} (kind : value.typeName = DataType.int8.name) :
    ∃ n, value = .int8 n := by
  cases value with
  | int8 n => exact ⟨n, rfl⟩
  | _ => exact absurd kind (by simp [Value.typeName, DataType.name])

/-- **Filtering and ordering use the same comparison exactly on integer columns.**
For two values of a column of type `INT4`, `INT8`, `TEXT` or `BOOL`, the operators of
`WHERE` agree with the comparison of `ORDER BY` when the type is one of the first
two, and never when it is one of the others. -/
theorem compares_alike_iff {dataType : DataType}
    (kind : dataType ∈ [DataType.int4, .int8, .text, .bool])
    (stored : left.typeName = dataType.name) (stored' : right.typeName = dataType.name) :
    ComparesAlike left right ↔ dataType = .int4 ∨ dataType = .int8 := by
  cases dataType with
  | int4 =>
      refine iff_of_true ?_ (.inl rfl)
      obtain ⟨m, rfl⟩ := int4_of_typeName stored
      obtain ⟨n, rfl⟩ := int4_of_typeName stored'
      exact comparesAlike_of_ints rfl rfl rfl
  | int8 =>
      refine iff_of_true ?_ (.inr rfl)
      obtain ⟨m, rfl⟩ := int8_of_typeName stored
      obtain ⟨n, rfl⟩ := int8_of_typeName stored'
      exact comparesAlike_of_ints rfl rfl rfl
  | text =>
      refine iff_of_false (not_comparesAlike ?_) (by simp)
      exact compareInts_eq_none (by rw [stored]; simp [DataType.name])
        (by rw [stored]; simp [DataType.name])
  | bool =>
      refine iff_of_false (not_comparesAlike ?_) (by simp)
      exact compareInts_eq_none (by rw [stored]; simp [DataType.name])
        (by rw [stored]; simp [DataType.name])
  | float4 | float8 | varchar | timestamp | json => simp at kind

end Agreement

omit [Runtime] in
/-- Sorting puts one text before the other, `WHERE` keeps neither. -/
theorem texts_not_compared :
    (@compareValues Runtime.reference (.text "a") (.text "b") = .lt) ∧
      ¬@ComparesAlike Runtime.reference (.text "a") (.text "b") := by
  let _ := Runtime.reference
  exact ⟨by decide +kernel, not_comparesAlike rfl⟩

omit [Runtime] in
theorem compares_alike_iff_int :
    @ComparesAlike Runtime.reference (.int4 1) (.int4 2) :=
  (@compares_alike_iff Runtime.reference _ _ .int4 (by simp) rfl rfl).mpr (.inl rfl)

end MoodengSQL
