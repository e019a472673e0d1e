import MoodengSQL.Evaluation.Comparisons
import MoodengSQL.Evaluation.Literals

/-!
# Three-valued logic

A condition is true, false or unknown. The evaluator makes a comparison with null
false and keeps null as an operand of `AND`, `OR` and `NOT`, where only two booleans
have a case. A condition whose operations all stay within these cases is judged as
three-valued logic judges it.
-/

namespace MoodengSQL

/-- What SQL takes a value for: an integer of any width is a number, the unknown truth
value is null. -/
inductive Datum where
  | null
  | integer (n : Int)
  | bool (b : Bool)
  | other (v : Value)
  deriving DecidableEq, Repr

/-- What a value stands for. -/
def Value.datum : Value → Datum
  | .null => .null
  | .int4 n => .integer n.toInt
  | .int8 n => .integer n.toInt
  | .bool b => .bool b
  | v => .other v

namespace Datum

/-- A truth value. -/
def ofTruth : Option Bool → Datum
  | some b => .bool b
  | none => .null

/-- The truth value of a condition. -/
def truth : Datum → Option (Option Bool)
  | .null => some none
  | .bool b => some (some b)
  | _ => none

/-- The float a number converts to when it is compared with a float. -/
def asF64 [Runtime] : Datum → Option UInt64
  | .integer n => some (Runtime.f64OfInt n)
  | .other (.float4 bits) => some (Runtime.f64OfF32 bits)
  | .other (.float8 bits) => some bits
  | _ => none

/-- Equality of data that are not null: integers by value, other numbers as floats, and
everything else if it is the same. -/
def equals [Runtime] (left right : Datum) : Bool :=
  match left, right with
  | .integer m, .integer n => m == n
  | _, _ => match left.asF64, right.asF64 with
    | some x, some y => Runtime.f64PartialCmp x y == some .eq
    | _, _ => left == right

/-- What the reader of literals makes of a datum: an integer that `i64` does not hold
becomes zero. -/
def readAs : Datum → Datum
  | .integer n => if n < 2 ^ 63 then .integer n else .integer 0
  | d => d

end Datum

/-- A comparison, unknown if an operand is. -/
def comparison [Runtime] (compare : Datum → Datum → Bool) (left right : Datum) : Datum :=
  if left = .null ∨ right = .null then .null else .bool (compare left right)

section Kleene

/-- Negation of a truth value. -/
def kleeneNot : Option Bool → Option Bool
  | some b => some (!b)
  | none => none

/-- Conjunction: false if an operand is. -/
def kleeneAnd : Option Bool → Option Bool → Option Bool
  | some false, _ | _, some false => some false
  | some true, some true => some true
  | _, _ => none

/-- Disjunction: true if an operand is. -/
def kleeneOr : Option Bool → Option Bool → Option Bool
  | some true, _ | _, some true => some true
  | some false, some false => some false
  | _, _ => none

end Kleene

section Conditions

variable [Runtime] (row : List Value) (columns : List String)

/-- The value in three-valued logic of an expression that is built from integer, text,
boolean and null literals and columns by `=`, `<>`, `AND`, `OR`, `NOT`, `IS NULL`,
`IS NOT NULL` and parentheses. The operands of a connective are truth values. -/
def logicValue : Expr → Option Datum
  | .value (.number digits) =>
      if IsDecimal digits.toList then some (.integer (digitsValue digits.toList)) else none
  | .value (.other _) => none
  | .value v => some (Value.fromSqlLiteral v).datum
  | .identifier name => (evalExpr (.identifier name) row columns).toOption.map Value.datum
  | .compoundIdentifier parts =>
      (evalExpr (.compoundIdentifier parts) row columns).toOption.map Value.datum
  | .nested expr => logicValue expr
  | .binaryOp left .eq right => do
      return comparison Datum.equals (← logicValue left) (← logicValue right)
  | .binaryOp left .notEq right => do
      return comparison (fun l r => !l.equals r) (← logicValue left) (← logicValue right)
  | .binaryOp left .and right => do
      return .ofTruth (kleeneAnd (← (← logicValue left).truth) (← (← logicValue right).truth))
  | .binaryOp left .or right => do
      return .ofTruth (kleeneOr (← (← logicValue left).truth) (← (← logicValue right).truth))
  | .unaryOp .not expr => do return .ofTruth (kleeneNot (← (← logicValue expr).truth))
  | .isNull expr => do return .bool ((← logicValue expr) == .null)
  | .isNotNull expr => do return .bool ((← logicValue expr) != .null)
  | _ => none

/-- An expression and the expressions it is built from. -/
def parts : Expr → List Expr
  | .nested expr => .nested expr :: parts expr
  | .unaryOp op expr => .unaryOp op expr :: parts expr
  | .isNull expr => .isNull expr :: parts expr
  | .isNotNull expr => .isNotNull expr :: parts expr
  | .binaryOp left op right => .binaryOp left op right :: (parts left ++ parts right)
  | expr => [expr]

/-- The expression has a truth value. -/
def IsCondition (expr : Expr) : Prop := ∃ t, logicValue row columns expr = some (.ofTruth t)

/-- `WHERE` keeps the row exactly if the condition is true. -/
def WhereRight (expr : Expr) : Prop :=
  evalWhere expr row columns = .ok true ↔ logicValue row columns expr = some (.bool true)

/-- An operation on operands that the evaluator has no case for: a comparison with null,
or of values that `values_equal` does not compare as SQL does; the negation of null;
the conjunction of null with false and the disjunction of null with true. -/
inductive Departs : Expr → Prop
  | unknown {left right : Expr} {op : BinaryOperator} {l r : Datum}
      (equality : op = .eq ∨ op = .notEq) (first : logicValue row columns left = some l)
      (second : logicValue row columns right = some r) (null : l = .null ∨ r = .null) :
      Departs (.binaryOp left op right)
  | unequal {left right : Expr} {op : BinaryOperator} {l r : Datum} {u v : Value}
      (equality : op = .eq ∨ op = .notEq) (first : logicValue row columns left = some l)
      (second : logicValue row columns right = some r) (reads : u.datum = l.readAs)
      (reads' : v.datum = r.readAs) (present : l ≠ .null) (present' : r ≠ .null)
      (differ : valuesEqual u v ≠ l.equals r) : Departs (.binaryOp left op right)
  | negation {expr : Expr} (null : logicValue row columns expr = some .null) :
      Departs (.unaryOp .not expr)
  | conjunction {left right : Expr} {t t' : Option Bool}
      (first : logicValue row columns left = some (.ofTruth t))
      (second : logicValue row columns right = some (.ofTruth t'))
      (null : t = none ∧ t' = some false ∨ t = some false ∧ t' = none) :
      Departs (.binaryOp left .and right)
  | disjunction {left right : Expr} {t t' : Option Bool}
      (first : logicValue row columns left = some (.ofTruth t))
      (second : logicValue row columns right = some (.ofTruth t'))
      (null : t = none ∧ t' = some true ∨ t = some true ∧ t' = none) :
      Departs (.binaryOp left .or right)

end Conditions

section Reading

variable [Runtime]

omit [Runtime] in
theorem Datum.readAs_null {d : Datum} : d.readAs = .null ↔ d = .null := by
  cases d with
  | integer n =>
      unfold readAs
      dsimp only
      split <;> simp
  | _ => exact Iff.rfl

omit [Runtime] in
theorem Datum.readAs_ofTruth (t : Option Bool) : (Datum.ofTruth t).readAs = .ofTruth t := by
  cases t <;> rfl

omit [Runtime] in
theorem Datum.truth_eq_some {d : Datum} {t : Option Bool} (truth : d.truth = some t) :
    d = .ofTruth t := by
  cases d <;> cases truth <;> rfl

omit [Runtime] in
/-- Values are read as they are. -/
theorem Value.readAs_datum (v : Value) : v.datum.readAs = v.datum := by
  cases v with
  | int4 n =>
      have small := n.toInt_lt
      exact if_pos (by omega)
  | int8 n => exact if_pos n.toInt_lt
  | _ => rfl

omit [Runtime] in
/-- A value stands for a truth value if it is the boolean or null. -/
theorem Value.datum_eq_ofTruth {v : Value} {t : Option Bool} (same : v.datum = .ofTruth t) :
    v = t.elim .null .bool := by
  cases v <;> cases t <;> cases same <;> rfl

omit [Runtime] in
theorem Value.datum_null {v : Value} : v.datum = .null ↔ v = .null := by
  cases v <;> simp [datum]

omit [Runtime] in
theorem asI64_eq_some_iff {v : Value} {n : Int} : asI64 v = some n ↔ v.datum = .integer n := by
  cases v <;> simp [asI64, Value.datum]

omit [Runtime] in
theorem datum_injective_of_not_integer {u v : Value} (same : u.datum = v.datum)
    (other : asI64 u = none) : u = v := by
  cases u <;> cases v <;> simp [Value.datum, asI64] at same other ⊢ <;> exact same

/-- An integer equals no value of another kind. -/
theorem valuesEqual_integer_other {u v : Value}
    (kinds : (asI64 u).isSome = true ∧ asI64 v = none ∨ asI64 u = none ∧ (asI64 v).isSome = true) :
    valuesEqual u v = false := by
  cases u <;> cases v <;> simp [asI64] at kinds <;> rfl

/-- `values_equal` compares what the values stand for. -/
theorem valuesEqual_congr {u u' v v' : Value} (same : u.datum = u'.datum)
    (same' : v.datum = v'.datum) : valuesEqual u v = valuesEqual u' v' := by
  have ints : asI64 u = asI64 u' := Option.ext fun n => by
    rw [asI64_eq_some_iff, asI64_eq_some_iff, same]
  have ints' : asI64 v = asI64 v' := Option.ext fun n => by
    rw [asI64_eq_some_iff, asI64_eq_some_iff, same']
  cases first : asI64 u with
  | some m =>
      cases second : asI64 v with
      | some n =>
          rw [valuesEqual_of_asI64 first second,
            valuesEqual_of_asI64 (ints ▸ first) (ints' ▸ second)]
      | none =>
          rw [valuesEqual_integer_other (.inl ⟨by rw [first]; rfl, second⟩),
            valuesEqual_integer_other (.inl ⟨by rw [← ints, first]; rfl, ints' ▸ second⟩)]
  | none =>
      cases second : asI64 v with
      | some n =>
          rw [valuesEqual_integer_other (.inr ⟨first, by rw [second]; rfl⟩),
            valuesEqual_integer_other (.inr ⟨ints ▸ first, by rw [← ints', second]; rfl⟩)]
      | none =>
          rw [datum_injective_of_not_integer same first,
            datum_injective_of_not_integer same' second]

/-- Integers, texts and booleans are compared as SQL does. -/
theorem valuesEqual_eq_equals {u v : Value}
    (plain : (asI64 u).isSome = true ∨ (∃ s, u = .text s) ∨ ∃ b, u = .bool b)
    (plain' : (asI64 v).isSome = true ∨ (∃ s, v = .text s) ∨ ∃ b, v = .bool b) :
    valuesEqual u v = u.datum.equals v.datum := by
  cases u <;> simp [asI64] at plain <;> cases v <;> simp [asI64] at plain' <;> try rfl
  case text.text a b =>
    change (a == b) = decide (Datum.other (.text a) = Datum.other (.text b))
    rw [Bool.eq_iff_iff]
    simp
  case bool.bool a b =>
    change (a == b) = decide (Datum.bool a = Datum.bool b)
    rw [Bool.eq_iff_iff]
    simp

end Reading

section Judged

variable [Runtime] {row : List Value} {columns : List String} {expr left right : Expr}

/-- The value of an expression is what three-valued logic has for it, as the reader of
literals reads it. -/
def Judged (row : List Value) (columns : List String) (expr : Expr) (d : Datum) : Prop :=
  ∃ v, evalExpr expr row columns = .ok v ∧ v.datum = d.readAs

/-- A truth value is computed as it is. -/
theorem judged_ofTruth {t : Option Bool} :
    Judged row columns expr (.ofTruth t) ↔
      evalExpr expr row columns = .ok (t.elim .null .bool) := by
  unfold Judged
  rw [Datum.readAs_ofTruth]
  constructor
  · rintro ⟨v, ran, same⟩
    rw [ran, Value.datum_eq_ofTruth same]
  · intro ran
    exact ⟨_, ran, by cases t <;> rfl⟩

/-- The connectives on truth values. -/
theorem evalBinary_and (t t' : Option Bool)
    (covered : ¬(t = none ∧ t' = some false ∨ t = some false ∧ t' = none)) :
    evalBinary (t.elim .null .bool) .and (t'.elim .null .bool) =
      .ok ((kleeneAnd t t').elim .null .bool) := by
  rcases t with _ | _ | _ <;> rcases t' with _ | _ | _ <;> first | rfl | simp at covered

theorem evalBinary_or (t t' : Option Bool)
    (covered : ¬(t = none ∧ t' = some true ∨ t = some true ∧ t' = none)) :
    evalBinary (t.elim .null .bool) .or (t'.elim .null .bool) =
      .ok ((kleeneOr t t').elim .null .bool) := by
  rcases t with _ | _ | _ <;> rcases t' with _ | _ | _ <;> first | rfl | simp at covered

variable {d l r : Datum}

theorem judged_value {v : SqlValue} (value : logicValue row columns (.value v) = some d) :
    Judged row columns (.value v) d := by
  cases v with
  | number digits =>
      rw [logicValue] at value
      split at value
      · rename_i decimal
        cases value
        refine ⟨_, rfl, ?_⟩
        rw [fromSqlLiteral_decimal decimal, Datum.readAs]
        split
        · rename_i small
          exact congrArg Datum.integer (Int64.toInt_ofInt_of_le (by omega) small)
        · rfl
      · cases value
  | other debug => cases value
  | _ =>
      cases value
      exact ⟨_, rfl, (Value.readAs_datum _).symm⟩

theorem judged_column (value : (evalExpr expr row columns).toOption.map Value.datum = some d) :
    Judged row columns expr d := by
  cases ran : evalExpr expr row columns with
  | error e =>
      rw [ran] at value
      cases value
  | ok v =>
      rw [ran] at value
      cases value
      exact ⟨v, ran, (Value.readAs_datum v).symm⟩

omit [Runtime] in
/-- A test for null. -/
theorem isNull_of_judged {v : Value} (same : v.datum = d.readAs) : v.isNull = (d == .null) := by
  have null : v.isNull = true ↔ (d == .null) = true := by
    rw [beq_iff_eq, ← Datum.readAs_null, ← same, Value.datum_null]
    cases v <;> simp [Value.isNull]
  exact Bool.eq_iff_iff.mpr null

theorem evalExpr_not {t : Option Bool} (ran : evalExpr expr row columns = .ok (t.elim .null .bool)) :
    evalExpr (.unaryOp .not expr) row columns = .ok (.bool (t == some false)) := by
  unfold evalExpr at ran ⊢
  rw [evalExprWithExcluded, ran]
  rcases t with _ | _ | _ <;> rfl

/-- The two comparisons, and what they make of the equality of their operands. -/
inductive Equality : BinaryOperator → (Bool → Bool) → Prop
  | eq : Equality .eq id
  | notEq : Equality .notEq not

section Comparisons

variable {op : BinaryOperator} {test : Bool → Bool}

omit [Runtime] in
theorem Equality.operator (equality : Equality op test) : op = .eq ∨ op = .notEq := by
  cases equality with
  | eq => exact .inl rfl
  | notEq => exact .inr rfl

omit [Runtime] in
theorem Equality.injective (equality : Equality op test) : Function.Injective test := by
  cases equality with
  | eq => exact Function.injective_id
  | notEq => exact Bool.not_injective

theorem Equality.evalBinary (equality : Equality op test) (u v : Value) :
    evalBinary u op v =
      .ok (.bool (if u.isNull || v.isNull then false else test (valuesEqual u v))) := by
  cases equality <;> cases u <;> cases v <;> rfl

theorem Equality.logicValue (equality : Equality op test)
    (first : logicValue row columns left = some l)
    (second : logicValue row columns right = some r) :
    logicValue row columns (.binaryOp left op right) =
      some (comparison (fun l r => test (l.equals r)) l r) := by
  cases equality <;> rw [MoodengSQL.logicValue, first, second] <;> rfl

omit [Runtime] in
theorem isNull_of_present {v : Value} (reads : v.datum = d.readAs) (present : d ≠ .null) :
    v.isNull = false := by
  rw [isNull_of_judged reads]
  exact beq_eq_false_iff_ne.mpr present

/-- A comparison that does not depart. -/
theorem judged_comparison (equality : Equality op test)
    (first : logicValue row columns left = some l) (second : logicValue row columns right = some r)
    (judged : Judged row columns left l) (judged' : Judged row columns right r)
    (here : ¬Departs row columns (.binaryOp left op right)) :
    Judged row columns (.binaryOp left op right)
      (comparison (fun l r => test (l.equals r)) l r) := by
  obtain ⟨u, ran, reads⟩ := judged
  obtain ⟨v, ran', reads'⟩ := judged'
  have present : ¬(l = .null ∨ r = .null) :=
    fun null => here (.unknown equality.operator first second null)
  obtain ⟨presentLeft, presentRight⟩ := not_or.mp present
  have equal : valuesEqual u v = l.equals r := by
    by_contra differ
    apply here
    exact .unequal equality.operator first second reads reads' presentLeft presentRight differ
  refine ⟨_, (evalExpr_binaryOp _ ran ran').trans (equality.evalBinary u v), ?_⟩
  rw [isNull_of_present reads presentLeft, isNull_of_present reads' presentRight, comparison,
    if_neg present, equal]
  rfl

end Comparisons

/-- **An expression without a departing operation has its value in three-valued
logic.** -/
theorem judged_of_covered (value : logicValue row columns expr = some d)
    (covered : ∀ part ∈ parts expr, ¬Departs row columns part) : Judged row columns expr d := by
  induction expr generalizing d with
  | value v => exact judged_value value
  | identifier name => exact judged_column value
  | compoundIdentifier names => exact judged_column value
  | nested expr ih => exact ih value (List.forall_mem_cons.mp covered).2
  | isNull expr ih =>
      obtain ⟨operand, value, same⟩ := Option.bind_eq_some_iff.mp value
      obtain ⟨v, ran, reads⟩ := ih value (List.forall_mem_cons.mp covered).2
      cases same
      refine ⟨.bool v.isNull, ?_, congrArg Datum.bool (isNull_of_judged reads)⟩
      unfold evalExpr at ran ⊢
      rw [evalExprWithExcluded, ran]
      rfl
  | isNotNull expr ih =>
      obtain ⟨operand, value, same⟩ := Option.bind_eq_some_iff.mp value
      obtain ⟨v, ran, reads⟩ := ih value (List.forall_mem_cons.mp covered).2
      cases same
      refine ⟨.bool (!v.isNull), ?_, congrArg (fun b => Datum.bool (!b)) (isNull_of_judged reads)⟩
      unfold evalExpr at ran ⊢
      rw [evalExprWithExcluded, ran]
      rfl
  | unaryOp op expr ih =>
      obtain ⟨here, inner⟩ := List.forall_mem_cons.mp covered
      cases op with
      | not =>
          obtain ⟨operand, value', rest⟩ := Option.bind_eq_some_iff.mp value
          obtain ⟨t, truth, same⟩ := Option.bind_eq_some_iff.mp rest
          cases Datum.truth_eq_some truth
          cases same
          refine judged_ofTruth.mpr ((evalExpr_not (judged_ofTruth.mp (ih value' inner))).trans ?_)
          rcases t with _ | _ | _
          · exact absurd (.negation value') here
          · rfl
          · rfl
      | _ => cases value
  | binaryOp left op right ihLeft ihRight =>
      obtain ⟨here, inner⟩ := List.forall_mem_cons.mp covered
      obtain ⟨innerLeft, innerRight⟩ := List.forall_mem_append.mp inner
      cases op with
      | eq =>
          obtain ⟨l, first, rest⟩ := Option.bind_eq_some_iff.mp value
          obtain ⟨r, second, same⟩ := Option.bind_eq_some_iff.mp rest
          cases same
          exact judged_comparison .eq first second (ihLeft first innerLeft)
            (ihRight second innerRight) here
      | notEq =>
          obtain ⟨l, first, rest⟩ := Option.bind_eq_some_iff.mp value
          obtain ⟨r, second, same⟩ := Option.bind_eq_some_iff.mp rest
          cases same
          exact judged_comparison .notEq first second (ihLeft first innerLeft)
            (ihRight second innerRight) here
      | and =>
          obtain ⟨l, first, rest⟩ := Option.bind_eq_some_iff.mp value
          obtain ⟨t, truth, rest⟩ := Option.bind_eq_some_iff.mp rest
          obtain ⟨r, second, rest⟩ := Option.bind_eq_some_iff.mp rest
          obtain ⟨t', truth', same⟩ := Option.bind_eq_some_iff.mp rest
          cases Datum.truth_eq_some truth
          cases Datum.truth_eq_some truth'
          cases same
          rw [judged_ofTruth, evalExpr_binaryOp _ (judged_ofTruth.mp (ihLeft first innerLeft))
            (judged_ofTruth.mp (ihRight second innerRight))]
          exact evalBinary_and t t' fun null => here (.conjunction first second null)
      | or =>
          obtain ⟨l, first, rest⟩ := Option.bind_eq_some_iff.mp value
          obtain ⟨t, truth, rest⟩ := Option.bind_eq_some_iff.mp rest
          obtain ⟨r, second, rest⟩ := Option.bind_eq_some_iff.mp rest
          obtain ⟨t', truth', same⟩ := Option.bind_eq_some_iff.mp rest
          cases Datum.truth_eq_some truth
          cases Datum.truth_eq_some truth'
          cases same
          rw [judged_ofTruth, evalExpr_binaryOp _ (judged_ofTruth.mp (ihLeft first innerLeft))
            (judged_ofTruth.mp (ihRight second innerRight))]
          exact evalBinary_or t t' fun null => here (.disjunction first second null)
      | _ => cases value
  | _ => cases value

/-- A row is kept if the condition is computed to true. -/
theorem evalWhere_truth {t : Option Bool}
    (ran : evalExpr expr row columns = .ok (t.elim .null .bool)) :
    evalWhere expr row columns = .ok (t == some true) := by
  unfold evalExpr at ran
  rw [evalWhere, evalWhereWithExcluded, ran]
  rcases t with _ | _ | _ <;> rfl

theorem logicValue_not {t : Option Bool}
    (value : logicValue row columns expr = some (.ofTruth t)) :
    logicValue row columns (.unaryOp .not expr) = some (.ofTruth (kleeneNot t)) := by
  rw [logicValue, value]
  rcases t with _ | _ | _ <;> rfl

/-- A condition that `WHERE` judges right, as it does its negation, is computed to its
truth value. -/
theorem truth_eq_of_right {c t : Option Bool}
    (ran : evalExpr expr row columns = .ok (c.elim .null .bool))
    (value : logicValue row columns expr = some (.ofTruth t))
    (right : WhereRight row columns expr) (right' : WhereRight row columns (.unaryOp .not expr)) :
    c = t := by
  have negated : evalExpr (.unaryOp .not expr) row columns =
      .ok ((some (c == some false)).elim .null .bool) := evalExpr_not ran
  unfold WhereRight at right right'
  rw [evalWhere_truth ran, value] at right
  rw [evalWhere_truth negated, logicValue_not value] at right'
  rcases c with _ | _ | _ <;> rcases t with _ | _ | _ <;> revert right right' <;>
    simp [Datum.ofTruth, kleeneNot]

/-- `WHERE` judges the expression and its negation right. -/
def BothRight (row : List Value) (columns : List String) (expr : Expr) : Prop :=
  WhereRight row columns expr ∧ WhereRight row columns (.unaryOp .not expr)

/-- A comparison that is judged right does not depart. -/
theorem not_departs_comparison {op : BinaryOperator} {test : Bool → Bool}
    (equality : Equality op test) (first : logicValue row columns left = some l)
    (second : logicValue row columns right = some r) (judged : Judged row columns left l)
    (judged' : Judged row columns right r)
    (right' : IsCondition row columns (.binaryOp left op right) →
      BothRight row columns (.binaryOp left op right)) :
    ¬Departs row columns (.binaryOp left op right) := by
  obtain ⟨u, ran, reads⟩ := judged
  obtain ⟨v, ran', reads'⟩ := judged'
  have computed := (evalExpr_binaryOp op ran ran').trans (equality.evalBinary u v)
  have value := equality.logicValue first second
  have same : ∀ {t : Option Bool}, comparison (fun l r => test (l.equals r)) l r = .ofTruth t →
      some (if u.isNull || v.isNull then false else test (valuesEqual u v)) = t := by
    intro t truth
    rw [truth] at value
    obtain ⟨judges, judges'⟩ := right' ⟨t, value⟩
    exact truth_eq_of_right computed value judges judges'
  intro departs
  cases departs with
  | @unknown _ _ _ l' r' _ first' second' null =>
      obtain rfl := Option.some.inj (first.symm.trans first')
      obtain rfl := Option.some.inj (second.symm.trans second')
      have truth : comparison (fun l r => test (l.equals r)) l r = .ofTruth none := if_pos null
      exact nomatch same truth
  | @unequal _ _ _ l' r' u' v' _ first' second' reads₂ reads₂' present present' differ =>
      obtain rfl := Option.some.inj (first.symm.trans first')
      obtain rfl := Option.some.inj (second.symm.trans second')
      have truth : comparison (fun l r => test (l.equals r)) l r =
          .ofTruth (some (test (l.equals r))) :=
        if_neg (not_or.mpr ⟨present, present'⟩)
      have agreed := Option.some.inj (same truth)
      rw [isNull_of_present reads present, isNull_of_present reads' present'] at agreed
      apply differ
      rw [← equality.injective agreed]
      exact valuesEqual_congr (reads₂.trans reads.symm) (reads₂'.trans reads'.symm)
  | conjunction => cases equality
  | disjunction => cases equality

section Connectives

variable {t t' : Option Bool}

theorem logicValue_and (first : logicValue row columns left = some (.ofTruth t))
    (second : logicValue row columns right = some (.ofTruth t')) :
    logicValue row columns (.binaryOp left .and right) = some (.ofTruth (kleeneAnd t t')) := by
  rw [logicValue, first, second]
  cases t <;> cases t' <;> rfl

theorem logicValue_or (first : logicValue row columns left = some (.ofTruth t))
    (second : logicValue row columns right = some (.ofTruth t')) :
    logicValue row columns (.binaryOp left .or right) = some (.ofTruth (kleeneOr t t')) := by
  rw [logicValue, first, second]
  cases t <;> cases t' <;> rfl

/-- A conjunction that is judged right does not depart. -/
theorem not_departs_and (judged : ∀ {t}, logicValue row columns left = some (.ofTruth t) →
      evalExpr left row columns = .ok (t.elim .null .bool))
    (judged' : ∀ {t}, logicValue row columns right = some (.ofTruth t) →
      evalExpr right row columns = .ok (t.elim .null .bool))
    (judges : IsCondition row columns (.binaryOp left .and right) →
      BothRight row columns (.binaryOp left .and right)) :
    ¬Departs row columns (.binaryOp left .and right) := by
  intro departs
  cases departs with
  | unknown equality => simp at equality
  | unequal equality => simp at equality
  | conjunction first second null =>
      have value := logicValue_and first second
      have computed := evalExpr_binaryOp .and (judged first) (judged' second)
      obtain ⟨here, negated⟩ := judges ⟨_, value⟩
      rcases null with ⟨rfl, rfl⟩ | ⟨rfl, rfl⟩
      · exact nomatch (truth_eq_of_right (c := none) computed value here negated)
      · exact nomatch (truth_eq_of_right (c := none) computed value here negated)

/-- A disjunction that is judged right does not depart. -/
theorem not_departs_or (judged : ∀ {t}, logicValue row columns left = some (.ofTruth t) →
      evalExpr left row columns = .ok (t.elim .null .bool))
    (judged' : ∀ {t}, logicValue row columns right = some (.ofTruth t) →
      evalExpr right row columns = .ok (t.elim .null .bool))
    (judges : IsCondition row columns (.binaryOp left .or right) →
      BothRight row columns (.binaryOp left .or right)) :
    ¬Departs row columns (.binaryOp left .or right) := by
  intro departs
  cases departs with
  | unknown equality => simp at equality
  | unequal equality => simp at equality
  | disjunction first second null =>
      have value := logicValue_or first second
      have computed := evalExpr_binaryOp .or (judged first) (judged' second)
      obtain ⟨here, negated⟩ := judges ⟨_, value⟩
      rcases null with ⟨rfl, rfl⟩ | ⟨rfl, rfl⟩
      · exact nomatch (truth_eq_of_right (c := none) computed value here negated)
      · exact nomatch (truth_eq_of_right (c := none) computed value here negated)

end Connectives

/-- **If an expression is judged right in all its parts, none departs.** -/
theorem covered_of_right (value : logicValue row columns expr = some d)
    (right : ∀ part ∈ parts expr, IsCondition row columns part → BothRight row columns part) :
    ∀ part ∈ parts expr, ¬Departs row columns part := by
  induction expr generalizing d with
  | nested expr ih =>
      refine List.forall_mem_cons.mpr ⟨fun departs => (nomatch departs), ?_⟩
      exact ih value (List.forall_mem_cons.mp right).2
  | isNull expr ih | isNotNull expr ih =>
      obtain ⟨operand, value, -⟩ := Option.bind_eq_some_iff.mp value
      refine List.forall_mem_cons.mpr ⟨fun departs => (nomatch departs), ?_⟩
      exact ih value (List.forall_mem_cons.mp right).2
  | unaryOp op expr ih =>
      obtain ⟨here, inner⟩ := List.forall_mem_cons.mp right
      cases op with
      | not =>
          obtain ⟨operand, value', rest⟩ := Option.bind_eq_some_iff.mp value
          have covered := ih value' inner
          refine List.forall_mem_cons.mpr ⟨fun departs => ?_, covered⟩
          have null : logicValue row columns expr = some (.ofTruth none) := by
            cases departs with
            | negation null => exact null
          have ran := judged_ofTruth.mp (judged_of_covered null covered)
          have negated := logicValue_not null
          obtain ⟨judges, judges'⟩ := here ⟨none, negated⟩
          have computed : evalExpr (.unaryOp .not expr) row columns =
              .ok ((some false).elim .null .bool) := evalExpr_not ran
          exact nomatch truth_eq_of_right computed negated judges judges'
      | _ => cases value
  | binaryOp left op right ihLeft ihRight =>
      obtain ⟨here, inner⟩ := List.forall_mem_cons.mp right
      obtain ⟨innerLeft, innerRight⟩ := List.forall_mem_append.mp inner
      cases op with
      | eq =>
          obtain ⟨l, first, rest⟩ := Option.bind_eq_some_iff.mp value
          obtain ⟨r, second, -⟩ := Option.bind_eq_some_iff.mp rest
          have covered := ihLeft first innerLeft
          have covered' := ihRight second innerRight
          refine List.forall_mem_cons.mpr ⟨?_, List.forall_mem_append.mpr ⟨covered, covered'⟩⟩
          exact not_departs_comparison .eq first second (judged_of_covered first covered)
            (judged_of_covered second covered') here
      | notEq =>
          obtain ⟨l, first, rest⟩ := Option.bind_eq_some_iff.mp value
          obtain ⟨r, second, -⟩ := Option.bind_eq_some_iff.mp rest
          have covered := ihLeft first innerLeft
          have covered' := ihRight second innerRight
          refine List.forall_mem_cons.mpr ⟨?_, List.forall_mem_append.mpr ⟨covered, covered'⟩⟩
          exact not_departs_comparison .notEq first second (judged_of_covered first covered)
            (judged_of_covered second covered') here
      | and =>
          obtain ⟨l, first, rest⟩ := Option.bind_eq_some_iff.mp value
          obtain ⟨t, -, rest⟩ := Option.bind_eq_some_iff.mp rest
          obtain ⟨r, second, -⟩ := Option.bind_eq_some_iff.mp rest
          have covered := ihLeft first innerLeft
          have covered' := ihRight second innerRight
          refine List.forall_mem_cons.mpr ⟨?_, List.forall_mem_append.mpr ⟨covered, covered'⟩⟩
          exact not_departs_and (fun truth => judged_ofTruth.mp (judged_of_covered truth covered))
            (fun truth => judged_ofTruth.mp (judged_of_covered truth covered')) here
      | or =>
          obtain ⟨l, first, rest⟩ := Option.bind_eq_some_iff.mp value
          obtain ⟨t, -, rest⟩ := Option.bind_eq_some_iff.mp rest
          obtain ⟨r, second, -⟩ := Option.bind_eq_some_iff.mp rest
          have covered := ihLeft first innerLeft
          have covered' := ihRight second innerRight
          refine List.forall_mem_cons.mpr ⟨?_, List.forall_mem_append.mpr ⟨covered, covered'⟩⟩
          exact not_departs_or (fun truth => judged_ofTruth.mp (judged_of_covered truth covered))
            (fun truth => judged_ofTruth.mp (judged_of_covered truth covered')) here
      | _ => cases value
  | _ => exact List.forall_mem_singleton.mpr fun departs => nomatch departs

/-- An expression that is no condition is kept by `WHERE` if it is computed to what it
is. -/
theorem not_whereRight_of_not_condition (value : logicValue row columns expr = some d)
    (judged : Judged row columns expr d) (other : ¬IsCondition row columns expr) :
    ¬WhereRight row columns expr := by
  intro right
  obtain ⟨v, ran, reads⟩ := judged
  have notTruth : ∀ t : Option Bool, d ≠ .ofTruth t := fun t same => other ⟨t, same ▸ value⟩
  have kept : evalWhere expr row columns = .ok true := by
    unfold evalExpr at ran
    rw [evalWhere, evalWhereWithExcluded, ran]
    cases v with
    | null => exact absurd (Datum.readAs_null.mp reads.symm) (notTruth none)
    | bool b =>
        cases d with
        | bool b' => exact absurd rfl (notTruth (some b'))
        | integer n =>
            simp only [Datum.readAs] at reads
            split at reads <;> cases reads
        | _ => cases reads
    | _ => rfl
  obtain rfl := Option.some.inj (value.symm.trans (right.mp kept))
  exact notTruth (some true) rfl

omit [Runtime] in
theorem mem_parts_self (expr : Expr) : expr ∈ parts expr := by
  cases expr <;> exact List.mem_cons_self

omit [Runtime] in
/-- The parts of a part are parts. -/
theorem parts_subset {part : Expr} (member : part ∈ parts expr) : parts part ⊆ parts expr := by
  induction expr with
  | nested expr ih | isNull expr ih | isNotNull expr ih | unaryOp op expr ih =>
      rcases List.mem_cons.mp member with rfl | inside
      · exact List.Subset.refl _
      · exact List.subset_cons_of_subset _ (ih inside)
  | binaryOp left op right ihLeft ihRight =>
      rcases List.mem_cons.mp member with rfl | inside
      · exact List.Subset.refl _
      · apply List.subset_cons_of_subset
        rcases List.mem_append.mp inside with inside | inside
        · exact List.subset_append_of_subset_left _ (ihLeft inside)
        · exact List.subset_append_of_subset_right _ (ihRight inside)
  | _ =>
      obtain rfl := List.mem_singleton.mp member
      exact List.Subset.refl _

/-- A condition that is computed to its truth value is judged right. -/
theorem bothRight_of_judged {t : Option Bool}
    (value : logicValue row columns expr = some (.ofTruth t))
    (judged : Judged row columns expr (.ofTruth t)) : BothRight row columns expr := by
  have ran := judged_ofTruth.mp judged
  have negated : evalExpr (.unaryOp .not expr) row columns =
      .ok ((some (t == some false)).elim .null .bool) := evalExpr_not ran
  unfold BothRight WhereRight
  rw [evalWhere_truth ran, value, evalWhere_truth negated, logicValue_not value]
  rcases t with _ | _ | _ <;> simp [Datum.ofTruth, kleeneNot]

/-- **`WHERE` follows three-valued logic exactly where no operation departs from it.**
It judges an expression right, and with it every condition in the expression and the
condition's negation, if and only if the expression is a condition in which every
operation has a case for its operands. -/
theorem where_three_valued_iff (value : logicValue row columns expr = some d) :
    (WhereRight row columns expr ∧
      ∀ part ∈ parts expr, IsCondition row columns part → BothRight row columns part) ↔
      IsCondition row columns expr ∧ ∀ part ∈ parts expr, ¬Departs row columns part := by
  constructor
  · rintro ⟨right, judges⟩
    have covered := covered_of_right value judges
    refine ⟨?_, covered⟩
    by_contra other
    exact not_whereRight_of_not_condition value (judged_of_covered value covered) other right
  · rintro ⟨condition, covered⟩
    have judges : ∀ part ∈ parts expr, IsCondition row columns part →
        BothRight row columns part := by
      intro part member ⟨t, truth⟩
      refine bothRight_of_judged truth (judged_of_covered truth fun inner inside => ?_)
      exact covered inner (parts_subset member inside)
    exact ⟨(judges expr (mem_parts_self expr) condition).1, judges⟩

end Judged

/-- `a = 1`. -/
def aIsOne : Expr := .binaryOp (.identifier "a") .eq (.value (.number "1"))

/-- `WHERE NOT (a = 1)` keeps a row in which `a` is null. -/
theorem not_three_valued :
    @evalWhere Runtime.reference (.unaryOp .not (.nested aIsOne)) [.null] ["a"] = .ok true ∧
      @logicValue Runtime.reference [.null] ["a"] (.unaryOp .not (.nested aIsOne)) =
        some .null := by
  decide +kernel

/-- `WHERE NOT (a = 1)` keeps a row in which `a` is two. -/
theorem where_three_valued_iff_two :
    @WhereRight Runtime.reference [.int4 2] ["a"] (.unaryOp .not (.nested aIsOne)) := by
  let _ := Runtime.reference
  have value : logicValue [.int4 2] ["a"] (.unaryOp .not (.nested aIsOne)) =
      some (.bool true) := by
    decide +kernel
  have equal : logicValue [.int4 2] ["a"] aIsOne = some (.bool false) := by decide +kernel
  have covered : ∀ part ∈ parts (.unaryOp .not (.nested aIsOne)), ¬Departs [.int4 2] ["a"] part := by
    have column : logicValue [.int4 2] ["a"] (.identifier "a") = some (.integer 2) := by
      decide +kernel
    have literal : logicValue [.int4 2] ["a"] (.value (.number "1")) = some (.integer 1) := by
      decide +kernel
    have comparison : ¬Departs [.int4 2] ["a"] aIsOne := by
      intro departs
      cases departs with
      | unknown _ first second null =>
          cases column.symm.trans first
          cases literal.symm.trans second
          simp at null
      | unequal _ first second reads reads' _ _ differ =>
          cases column.symm.trans first
          cases literal.symm.trans second
          apply differ
          rw [valuesEqual_eq_equals (.inl (by rw [asI64_eq_some_iff.mpr reads]; rfl))
            (.inl (by rw [asI64_eq_some_iff.mpr reads']; rfl)), reads, reads']
          rfl
    intro part member departs
    simp only [parts, aIsOne, List.mem_cons, List.mem_append, List.not_mem_nil, or_false] at member
    rcases member with rfl | rfl | rfl | rfl | rfl
    · cases departs with
      | negation null => exact nomatch equal.symm.trans null
    · cases departs
    · exact comparison departs
    · cases departs
    · cases departs
  exact ((where_three_valued_iff value).mpr ⟨⟨some true, value⟩, covered⟩).1

end MoodengSQL
