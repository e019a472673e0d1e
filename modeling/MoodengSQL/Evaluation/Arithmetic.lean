import MoodengSQL.Evaluation.Comparisons
import MoodengSQL.Evaluation.Literals
import MoodengSQL.Execution.Runs

/-!
# Integer arithmetic

An expression over integers has a mathematical value. The evaluator computes with
32 or 64 bits, and has a case for some pairs of operands only. What it computes is
the mathematical value as long as every operation on the way has a case for the
widths of its operands and a result that fits.
-/

namespace MoodengSQL

open Foundation Effect

/-- The width of an integer value. -/
inductive IntWidth where
  | int4
  | int8
  deriving DecidableEq, Repr

namespace IntWidth

/-- The integer fits the width. -/
def Holds : IntWidth → Int → Prop
  | .int4, n => -2 ^ 31 ≤ n ∧ n < 2 ^ 31
  | .int8, n => -2 ^ 63 ≤ n ∧ n < 2 ^ 63

instance (width : IntWidth) (n : Int) : Decidable (width.Holds n) := by
  cases width <;> exact inferInstanceAs (Decidable (_ ∧ _))

/-- The value of an integer that fits. -/
def value : IntWidth → Int → Value
  | .int4, n => .int4 (Int32.ofInt n)
  | .int8, n => .int8 (Int64.ofInt n)

theorem asI64_value {width : IntWidth} {n : Int} (holds : width.Holds n) :
    asI64 (width.value n) = some n := by
  cases width with
  | int4 => exact congrArg some (Int32.toInt_ofInt_of_le holds.1 holds.2)
  | int8 => exact congrArg some (Int64.toInt_ofInt_of_le holds.1 holds.2)

/-- An integer value has a width that it fits. -/
theorem exists_of_asI64 {v : Value} {n : Int} (int : asI64 v = some n) :
    ∃ width : IntWidth, width.Holds n ∧ v = width.value n := by
  cases v with
  | int4 m =>
      cases int
      exact ⟨.int4, ⟨m.le_toInt, m.toInt_lt⟩, by rw [value, Int32.ofInt_toInt]⟩
  | int8 m =>
      cases int
      exact ⟨.int8, ⟨m.le_toInt, m.toInt_lt⟩, by rw [value, Int64.ofInt_toInt]⟩
  | _ => cases int

variable [Runtime]

/-- The result of an operation of a width with the exact value `n`. -/
def result : IntWidth → Int → Except Failure Value
  | .int4, n => i32Result n
  | .int8, n => i64Result n

theorem result_of_holds {width : IntWidth} {n : Int} (holds : width.Holds n) :
    width.result n = .ok (width.value n) := by
  cases width with
  | int4 => exact if_neg fun overflows => overflows.2 holds
  | int8 => exact if_neg fun overflows => overflows.2 holds

/-- An operation whose result is the exact value, or an error, has a result that fits. -/
theorem holds_of_result {width : IntWidth} {n : Int}
    (exact : (∃ v, width.result n = .ok v ∧ asI64 v = some n) ∨
      ∃ e, width.result n = .error (.error e)) : width.Holds n := by
  by_contra overflows
  cases width with
  | int4 =>
      simp only [result, i32Result] at exact
      split at exact
      · rcases exact with ⟨v, ran, -⟩ | ⟨e, ran⟩ <;> cases ran
      · rcases exact with ⟨v, ran, same⟩ | ⟨e, ran⟩
        · cases ran
          have same : (Int32.ofInt n).toInt = n := Option.some.inj same
          exact overflows (same ▸ ⟨(Int32.ofInt n).le_toInt, (Int32.ofInt n).toInt_lt⟩)
        · cases ran
  | int8 =>
      simp only [result, i64Result] at exact
      split at exact
      · rcases exact with ⟨v, ran, -⟩ | ⟨e, ran⟩ <;> cases ran
      · rcases exact with ⟨v, ran, same⟩ | ⟨e, ran⟩
        · cases ran
          have same : (Int64.ofInt n).toInt = n := Option.some.inj same
          exact overflows (same ▸ ⟨(Int64.ofInt n).le_toInt, (Int64.ofInt n).toInt_lt⟩)
        · cases ran

variable {first second : IntWidth} {m n : Int}

/-- Sums are computed of operands of one width. -/
theorem evalBinary_plus (left : first.Holds m) (right : second.Holds n) :
    evalBinary (first.value m) .plus (second.value n) =
      if first = second then first.result (m + n) else .ok .null := by
  cases first with
  | int4 => cases second with
    | int4 =>
        change i32Result ((Int32.ofInt m).toInt + (Int32.ofInt n).toInt) = i32Result (m + n)
        rw [Int32.toInt_ofInt_of_le left.1 left.2, Int32.toInt_ofInt_of_le right.1 right.2]
    | int8 => rfl
  | int8 => cases second with
    | int4 => rfl
    | int8 =>
        change i64Result ((Int64.ofInt m).toInt + (Int64.ofInt n).toInt) = i64Result (m + n)
        rw [Int64.toInt_ofInt_of_le left.1 left.2, Int64.toInt_ofInt_of_le right.1 right.2]

/-- Differences are computed of a narrow and a wide operand, in this order. -/
theorem evalBinary_minus (left : first.Holds m) (right : second.Holds n) :
    evalBinary (first.value m) .minus (second.value n) =
      if first = .int4 ∧ second = .int8 then int8.result (m - n) else .ok .null := by
  cases first with
  | int4 => cases second with
    | int4 => rfl
    | int8 =>
        change i64Result ((Int32.ofInt m).toInt - (Int64.ofInt n).toInt) = i64Result (m - n)
        rw [Int32.toInt_ofInt_of_le left.1 left.2, Int64.toInt_ofInt_of_le right.1 right.2]
  | int8 => cases second <;> rfl

/-- Products are computed of wide operands. -/
theorem evalBinary_multiply (left : first.Holds m) (right : second.Holds n) :
    evalBinary (first.value m) .multiply (second.value n) =
      if first = .int8 ∧ second = .int8 then int8.result (m * n) else .ok .null := by
  cases first with
  | int4 => cases second <;> rfl
  | int8 => cases second with
    | int4 => rfl
    | int8 =>
        change i64Result ((Int64.ofInt m).toInt * (Int64.ofInt n).toInt) = i64Result (m * n)
        rw [Int64.toInt_ofInt_of_le left.1 left.2, Int64.toInt_ofInt_of_le right.1 right.2]

end IntWidth

section Expressions

variable [Runtime] (row : List Value) (colNames : List String)

/-- The mathematical value of an expression that is built from decimal literals and
columns with integers by unary minus, `+`, `-` and `*`. -/
def exactValue : Expr → Option Int
  | .value (.number digits) =>
      if IsDecimal digits.toList then some (digitsValue digits.toList) else none
  | .identifier name => (evalExpr (.identifier name) row colNames).toOption.bind asI64
  | .compoundIdentifier parts =>
      (evalExpr (.compoundIdentifier parts) row colNames).toOption.bind asI64
  | .nested expr => exactValue expr
  | .unaryOp .minus expr => (exactValue expr).map fun n => -n
  | .binaryOp left .plus right => do return (← exactValue left) + (← exactValue right)
  | .binaryOp left .minus right => do return (← exactValue left) - (← exactValue right)
  | .binaryOp left .multiply right => do return (← exactValue left) * (← exactValue right)
  | _ => none

/-- The steps of evaluating an expression. -/
def subexpressions : Expr → List Expr
  | .nested expr => .nested expr :: subexpressions expr
  | .unaryOp op expr => .unaryOp op expr :: subexpressions expr
  | .binaryOp left op right =>
      .binaryOp left op right :: (subexpressions left ++ subexpressions right)
  | expr => [expr]

/-- An expression evaluates to the integer that is its mathematical value, or
evaluation returns an error. -/
def ExactOrRefused (expr : Expr) : Prop :=
  ∃ n, exactValue row colNames expr = some n ∧
    ((∃ v, evalExpr expr row colNames = .ok v ∧ asI64 v = some n) ∨
      ∃ e, evalExpr expr row colNames = .error (.error e))

/-- The expression has an integer of this width as its value, and the evaluator a
case for every operation in it, with a result that fits: literals are wide, sums
are of operands of one width, differences of a narrow and a wide operand, products
of wide ones. -/
inductive FitsWidth : Expr → IntWidth → Int → Prop
  | literal {digits : String} (decimal : IsDecimal digits.toList)
      (small : (digitsValue digits.toList : Int) < 2 ^ 63) :
      FitsWidth (.value (.number digits)) .int8 (digitsValue digits.toList)
  | identifier {name : String} {width : IntWidth} {n : Int} (holds : width.Holds n)
      (found : evalExpr (.identifier name) row colNames = .ok (width.value n)) :
      FitsWidth (.identifier name) width n
  | compoundIdentifier {parts : List String} {width : IntWidth} {n : Int} (holds : width.Holds n)
      (found : evalExpr (.compoundIdentifier parts) row colNames = .ok (width.value n)) :
      FitsWidth (.compoundIdentifier parts) width n
  | nested {expr : Expr} {width : IntWidth} {n : Int} (fits : FitsWidth expr width n) :
      FitsWidth (.nested expr) width n
  | negation {expr : Expr} {width : IntWidth} {n : Int} (fits : FitsWidth expr width n)
      (holds : width.Holds (-n)) : FitsWidth (.unaryOp .minus expr) width (-n)
  | sum {left right : Expr} {width : IntWidth} {m n : Int} (fits : FitsWidth left width m)
      (fits' : FitsWidth right width n) (holds : width.Holds (m + n)) :
      FitsWidth (.binaryOp left .plus right) width (m + n)
  | difference {left right : Expr} {m n : Int} (fits : FitsWidth left .int4 m)
      (fits' : FitsWidth right .int8 n) (holds : IntWidth.int8.Holds (m - n)) :
      FitsWidth (.binaryOp left .minus right) .int8 (m - n)
  | product {left right : Expr} {m n : Int} (fits : FitsWidth left .int8 m)
      (fits' : FitsWidth right .int8 n) (holds : IntWidth.int8.Holds (m * n)) :
      FitsWidth (.binaryOp left .multiply right) .int8 (m * n)

variable {row colNames} {expr left right : Expr} {width : IntWidth} {m n : Int}

theorem evalExpr_negation (holds : width.Holds n)
    (ran : evalExpr expr row colNames = .ok (width.value n)) :
    evalExpr (.unaryOp .minus expr) row colNames = width.result (-n) := by
  unfold evalExpr at ran ⊢
  rw [evalExprWithExcluded, ran]
  cases width with
  | int4 =>
      change i32Result (-(Int32.ofInt n).toInt) = i32Result (-n)
      rw [Int32.toInt_ofInt_of_le holds.1 holds.2]
  | int8 =>
      change i64Result (-(Int64.ofInt n).toInt) = i64Result (-n)
      rw [Int64.toInt_ofInt_of_le holds.1 holds.2]

/-- **An expression that fits is evaluated to its mathematical value.** -/
theorem FitsWidth.evaluates (fits : FitsWidth row colNames expr width n) :
    width.Holds n ∧ exactValue row colNames expr = some n ∧
      evalExpr expr row colNames = .ok (width.value n) := by
  induction fits with
  | literal decimal small =>
      refine ⟨⟨by omega, small⟩, if_pos decimal, ?_⟩
      change Except.ok (Value.fromSqlLiteral _) = _
      rw [fromSqlLiteral_decimal decimal, if_pos small]
      rfl
  | identifier holds found =>
      refine ⟨holds, ?_, found⟩
      rw [exactValue, found]
      exact IntWidth.asI64_value holds
  | compoundIdentifier holds found =>
      refine ⟨holds, ?_, found⟩
      rw [exactValue, found]
      exact IntWidth.asI64_value holds
  | nested _ ih => exact ih
  | negation _ holds ih =>
      obtain ⟨before, value, ran⟩ := ih
      refine ⟨holds, by rw [exactValue, value]; rfl, ?_⟩
      rw [evalExpr_negation before ran, IntWidth.result_of_holds holds]
  | sum _ _ holds ih ih' =>
      obtain ⟨first, value, ran⟩ := ih
      obtain ⟨second, value', ran'⟩ := ih'
      refine ⟨holds, by rw [exactValue, value, value']; rfl, ?_⟩
      rw [evalExpr_binaryOp _ ran ran', IntWidth.evalBinary_plus first second, if_pos rfl,
        IntWidth.result_of_holds holds]
  | difference _ _ holds ih ih' =>
      obtain ⟨first, value, ran⟩ := ih
      obtain ⟨second, value', ran'⟩ := ih'
      refine ⟨holds, by rw [exactValue, value, value']; rfl, ?_⟩
      rw [evalExpr_binaryOp _ ran ran', IntWidth.evalBinary_minus first second, if_pos ⟨rfl, rfl⟩,
        IntWidth.result_of_holds holds]
  | product _ _ holds ih ih' =>
      obtain ⟨first, value, ran⟩ := ih
      obtain ⟨second, value', ran'⟩ := ih'
      refine ⟨holds, by rw [exactValue, value, value']; rfl, ?_⟩
      rw [evalExpr_binaryOp _ ran ran', IntWidth.evalBinary_multiply first second,
        if_pos ⟨rfl, rfl⟩, IntWidth.result_of_holds holds]

/-- Every step of an expression that fits is exact. -/
theorem FitsWidth.exact (fits : FitsWidth row colNames expr width n) :
    ∀ part ∈ subexpressions expr, ExactOrRefused row colNames part := by
  have self {expr : Expr} {width : IntWidth} {n : Int} (fits : FitsWidth row colNames expr width n) :
      ExactOrRefused row colNames expr := by
    obtain ⟨holds, value, ran⟩ := fits.evaluates
    exact ⟨n, value, .inl ⟨_, ran, IntWidth.asI64_value holds⟩⟩
  induction fits with
  | literal decimal small => exact List.forall_mem_singleton.mpr (self (.literal decimal small))
  | identifier holds found =>
      exact List.forall_mem_singleton.mpr (self (.identifier holds found))
  | compoundIdentifier holds found =>
      exact List.forall_mem_singleton.mpr (self (.compoundIdentifier holds found))
  | nested fits ih => exact List.forall_mem_cons.mpr ⟨self (.nested fits), ih⟩
  | negation fits holds ih =>
      exact List.forall_mem_cons.mpr ⟨self (.negation fits holds), ih⟩
  | sum fits fits' holds ih ih' =>
      exact List.forall_mem_cons.mpr
        ⟨self (.sum fits fits' holds), List.forall_mem_append.mpr ⟨ih, ih'⟩⟩
  | difference fits fits' holds ih ih' =>
      exact List.forall_mem_cons.mpr
        ⟨self (.difference fits fits' holds), List.forall_mem_append.mpr ⟨ih, ih'⟩⟩
  | product fits fits' holds ih ih' =>
      exact List.forall_mem_cons.mpr
        ⟨self (.product fits fits' holds), List.forall_mem_append.mpr ⟨ih, ih'⟩⟩

/-- What an exact expression is evaluated to. -/
theorem ExactOrRefused.outcome (exact : ExactOrRefused row colNames expr)
    (value : exactValue row colNames expr = some n) {outcome : Except Failure Value}
    (ran : evalExpr expr row colNames = outcome) :
    (∃ v, outcome = .ok v ∧ asI64 v = some n) ∨ ∃ e, outcome = .error (.error e) := by
  obtain ⟨n', value', exact⟩ := exact
  obtain rfl := Option.some.inj (value'.symm.trans value)
  exact ran ▸ exact

omit [Runtime] in
/-- Null is no integer. -/
theorem not_exact_null
    (exact : (∃ v, (Except.ok Value.null : Except Failure Value) = .ok v ∧ asI64 v = some n) ∨
      ∃ e, (Except.ok Value.null : Except Failure Value) = .error (.error e)) : False := by
  rcases exact with ⟨v, ran, int⟩ | ⟨e, ran⟩
  · cases ran
    cases int
  · cases ran

/-- A column with a mathematical value holds an integer. -/
theorem integer_of_exactValue
    (value : (evalExpr expr row colNames).toOption.bind asI64 = some n) :
    ∃ v, evalExpr expr row colNames = .ok v ∧ asI64 v = some n := by
  cases ran : evalExpr expr row colNames with
  | ok v => exact ⟨v, rfl, by rwa [ran] at value⟩
  | error e =>
      rw [ran] at value
      cases value

/-- **An expression whose steps are all exact fits.** -/
theorem fits_of_exact (value : exactValue row colNames expr = some n)
    (exact : ∀ part ∈ subexpressions expr, ExactOrRefused row colNames part) :
    ∃ width, FitsWidth row colNames expr width n := by
  induction expr generalizing n with
  | value v =>
      have self := exact _ (List.mem_singleton.mpr rfl)
      cases v with
      | number digits =>
          rw [exactValue] at value
          split at value
          · rename_i decimal
            cases value
            refine ⟨.int8, .literal decimal ?_⟩
            have ran : evalExpr (.value (.number digits)) row colNames = .ok (.int8
                (if (digitsValue digits.toList : Int) < 2 ^ 63 then
                  Int64.ofInt (digitsValue digits.toList) else 0)) :=
              congrArg Except.ok (fromSqlLiteral_decimal decimal)
            by_contra large
            rw [if_neg large] at ran
            rcases self.outcome (if_pos decimal) ran with ⟨v, same, int⟩ | ⟨e, same⟩
            · cases same
              have zero : (0 : Int) = digitsValue digits.toList := Option.some.inj int
              omega
            · cases same
          · cases value
      | _ => cases value
  | identifier name =>
      obtain ⟨v, ran, int⟩ := integer_of_exactValue value
      obtain ⟨width, holds, rfl⟩ := IntWidth.exists_of_asI64 int
      exact ⟨width, .identifier holds ran⟩
  | compoundIdentifier parts =>
      obtain ⟨v, ran, int⟩ := integer_of_exactValue value
      obtain ⟨width, holds, rfl⟩ := IntWidth.exists_of_asI64 int
      exact ⟨width, .compoundIdentifier holds ran⟩
  | nested expr ih =>
      obtain ⟨width, fits⟩ := ih value fun part member => exact part (List.mem_cons_of_mem _ member)
      exact ⟨width, .nested fits⟩
  | unaryOp op expr ih =>
      cases op with
      | minus =>
          obtain ⟨m, value', rfl⟩ := Option.map_eq_some_iff.mp value
          obtain ⟨width, fits⟩ :=
            ih value' fun part member => exact part (List.mem_cons_of_mem _ member)
          have ran := evalExpr_negation fits.evaluates.1 fits.evaluates.2.2
          exact ⟨width, .negation fits (IntWidth.holds_of_result
            ((exact _ List.mem_cons_self).outcome value ran))⟩
      | _ => cases value
  | binaryOp left op right ihLeft ihRight =>
      have self := exact _ List.mem_cons_self
      have exactLeft : ∀ part ∈ subexpressions left, ExactOrRefused row colNames part :=
        fun part member => exact part (List.mem_cons_of_mem _ (List.mem_append_left _ member))
      have exactRight : ∀ part ∈ subexpressions right, ExactOrRefused row colNames part :=
        fun part member => exact part (List.mem_cons_of_mem _ (List.mem_append_right _ member))
      cases op with
      | plus =>
          obtain ⟨a, valueLeft, rest⟩ := Option.bind_eq_some_iff.mp value
          obtain ⟨b, valueRight, same⟩ := Option.bind_eq_some_iff.mp rest
          obtain rfl : a + b = n := Option.some.inj same
          obtain ⟨first, fits⟩ := ihLeft valueLeft exactLeft
          obtain ⟨second, fits'⟩ := ihRight valueRight exactRight
          have ran : evalExpr (.binaryOp left .plus right) row colNames = _ :=
            evalExpr_binaryOp _ fits.evaluates.2.2 fits'.evaluates.2.2
          rw [IntWidth.evalBinary_plus fits.evaluates.1 fits'.evaluates.1] at ran
          by_cases supported : first = second
          · obtain rfl := supported
            rw [if_pos rfl] at ran
            exact ⟨_, .sum fits fits' (IntWidth.holds_of_result (self.outcome value ran))⟩
          · rw [if_neg supported] at ran
            exact (not_exact_null (self.outcome value ran)).elim
      | minus =>
          obtain ⟨a, valueLeft, rest⟩ := Option.bind_eq_some_iff.mp value
          obtain ⟨b, valueRight, same⟩ := Option.bind_eq_some_iff.mp rest
          obtain rfl : a - b = n := Option.some.inj same
          obtain ⟨first, fits⟩ := ihLeft valueLeft exactLeft
          obtain ⟨second, fits'⟩ := ihRight valueRight exactRight
          have ran : evalExpr (.binaryOp left .minus right) row colNames = _ :=
            evalExpr_binaryOp _ fits.evaluates.2.2 fits'.evaluates.2.2
          rw [IntWidth.evalBinary_minus fits.evaluates.1 fits'.evaluates.1] at ran
          by_cases supported : first = .int4 ∧ second = .int8
          · obtain ⟨rfl, rfl⟩ := supported
            rw [if_pos ⟨rfl, rfl⟩] at ran
            exact ⟨_, .difference fits fits' (IntWidth.holds_of_result (self.outcome value ran))⟩
          · rw [if_neg supported] at ran
            exact (not_exact_null (self.outcome value ran)).elim
      | multiply =>
          obtain ⟨a, valueLeft, rest⟩ := Option.bind_eq_some_iff.mp value
          obtain ⟨b, valueRight, same⟩ := Option.bind_eq_some_iff.mp rest
          obtain rfl : a * b = n := Option.some.inj same
          obtain ⟨first, fits⟩ := ihLeft valueLeft exactLeft
          obtain ⟨second, fits'⟩ := ihRight valueRight exactRight
          have ran : evalExpr (.binaryOp left .multiply right) row colNames = _ :=
            evalExpr_binaryOp _ fits.evaluates.2.2 fits'.evaluates.2.2
          rw [IntWidth.evalBinary_multiply fits.evaluates.1 fits'.evaluates.1] at ran
          by_cases supported : first = .int8 ∧ second = .int8
          · obtain ⟨rfl, rfl⟩ := supported
            rw [if_pos ⟨rfl, rfl⟩] at ran
            exact ⟨_, .product fits fits' (IntWidth.holds_of_result (self.outcome value ran))⟩
          · rw [if_neg supported] at ran
            exact (not_exact_null (self.outcome value ran)).elim
      | _ => cases value
  | _ => cases value

/-- **Integer arithmetic is exact exactly where it fits.** An expression over
integers is evaluated without a step that overflows, wraps or gives null if and
only if every literal is an `INT8`, and every operation has a case for the widths of
its operands and a result within its width. -/
theorem arithmetic_exact_iff (integers : exactValue row colNames expr = some n) :
    (∀ part ∈ subexpressions expr, ExactOrRefused row colNames part) ↔
      ∃ width, FitsWidth row colNames expr width n := by
  constructor
  · exact fits_of_exact integers
  · rintro ⟨width, fits⟩
    exact fits.exact

end Expressions

/-- `id + 1`. -/
def increment : Expr := .binaryOp (.identifier "id") .plus (.value (.number "1"))

/-- `UPDATE t SET id = id + 1` stores null for one: the column is narrow, the literal
wide. -/
theorem increment_not_exact :
    (@exactValue Runtime.reference [.int4 1] ["id"] increment = some 2 ∧
      ¬@ExactOrRefused Runtime.reference [.int4 1] ["id"] increment) ∧
    (@runStatements Runtime.reference ddlOutside .fresh
      [createT, insertT [1], .update ⟨.table ["t"], []⟩ [⟨.columnName ["id"], increment⟩] none]).map
      (fun s => (s.storage.get "t" 1).map Row.values) = some (some [.null]) := by
  let _ := Runtime.reference
  have value : exactValue [.int4 1] ["id"] increment = some 2 := by decide +kernel
  have ran : evalExpr increment [.int4 1] ["id"] = .ok .null := by decide +kernel
  exact ⟨⟨value, fun exact => not_exact_null (exact.outcome value ran)⟩, by decide +kernel⟩

/-- An `INT8` column is incremented. -/
theorem arithmetic_exact_iff_wide :
    @exactValue Runtime.reference [.int8 1] ["id"] increment = some 2 ∧
      ∀ part ∈ subexpressions increment,
        @ExactOrRefused Runtime.reference [.int8 1] ["id"] part := by
  let _ := Runtime.reference
  have integers : exactValue [.int8 1] ["id"] increment = some (1 + 1) := by decide +kernel
  have one : FitsWidth [.int8 1] ["id"] (.identifier "id") .int8 1 :=
    .identifier (by decide) (by decide +kernel)
  have literal : FitsWidth [.int8 1] ["id"] (.value (.number "1")) .int8 1 :=
    .literal (by decide +kernel) (by decide +kernel)
  exact ⟨integers, (arithmetic_exact_iff integers).mpr ⟨.int8, .sum one literal (by decide)⟩⟩

end MoodengSQL
