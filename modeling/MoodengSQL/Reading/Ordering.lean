import MoodengSQL.Evaluation.Arithmetic
import MoodengSQL.Foundation.Comparators
import MoodengSQL.Reading.IndexScan

/-!
# Sorting

`compare_values` orders integers of one width by value and values of different kinds by
their display texts. The two orders disagree on integers whose texts sort the other way,
and a value of another kind with its text between theirs closes a circle.
-/

namespace MoodengSQL

open Foundation Foundation.Effect

section Values

/-- An integer with its width. -/
def Value.integer? : Value → Option (IntWidth × Int)
  | .int4 n => some (.int4, n.toInt)
  | .int8 n => some (.int8, n.toInt)
  | _ => none

/-- Floats of eight bytes are compared as floats only with themselves. -/
def SameIfFloats (u v : Value) : Prop :=
  ∀ bits bits', u = .float8 bits → v = .float8 bits' → bits = bits'

variable [Runtime] {u v w x y z : Value}

/-- `partial_cmp` on a float and itself: equal, or no order at all for a NaN. -/
def PartialCmpReflexive : Prop :=
  ∀ bits, (Runtime.f64PartialCmp bits bits).getD .eq = .eq

/-- What is compared by the display texts. -/
theorem compareValues_display (reflexive : PartialCmpReflexive) (same : SameIfFloats u v)
    (present : u ≠ .null) (present' : v ≠ .null)
    (kinds : ∀ width m n, u.integer? = some (width, m) → v.integer? ≠ some (width, n)) :
    compareValues u v = compare u.toDisplayString v.toDisplayString := by
  cases u <;> cases v <;> first | rfl | contradiction | skip
  case int4.int4 m n => exact absurd rfl (kinds .int4 m.toInt n.toInt rfl)
  case int8.int8 m n => exact absurd rfl (kinds .int8 m.toInt n.toInt rfl)
  case float8.float8 bits bits' =>
    obtain rfl := same bits bits' rfl rfl
    exact (reflexive bits).trans (compare_eq_iff_eq.mpr rfl).symm
  case bool.bool b b' =>
    have texts : ∀ b b' : Bool, compare b b' =
        compare (if b then "true" else "false") (if b' then "true" else "false") := by
      decide +kernel
    exact texts b b'

omit [Runtime] in
theorem eq_of_integer? {width : IntWidth} {n : Int} (integer : u.integer? = some (width, n)) :
    u = width.value n := by
  cases u with
  | int4 m =>
      cases integer
      rw [IntWidth.value, Int32.ofInt_toInt]
  | int8 m =>
      cases integer
      rw [IntWidth.value, Int64.ofInt_toInt]
  | _ => cases integer

/-- Integers of one width are compared by value. -/
theorem compareValues_integers {width : IntWidth} {m n : Int}
    (integer : u.integer? = some (width, m)) (integer' : v.integer? = some (width, n)) :
    compareValues u v = compare m n := by
  cases u <;> cases integer <;> cases v <;> cases integer' <;> rfl

theorem compareValues_null_left (present : v ≠ .null) : compareValues .null v = .lt := by
  cases v <;> first | rfl | contradiction

theorem compareValues_null_right (present : v ≠ .null) : compareValues v .null = .gt := by
  cases v <;> first | rfl | contradiction

/-- `compare_values` is oriented. -/
theorem compareValues_swap (reflexive : PartialCmpReflexive) (same : SameIfFloats u v) :
    compareValues v u = (compareValues u v).swap := by
  by_cases null : u = .null
  · subst null
    by_cases null' : v = .null
    · subst null'
      rfl
    · rw [compareValues_null_left null', compareValues_null_right null']
      rfl
  · by_cases null' : v = .null
    · subst null'
      rw [compareValues_null_left null, compareValues_null_right null]
      rfl
    · by_cases kinds : ∃ width m n, u.integer? = some (width, m) ∧ v.integer? = some (width, n)
      · obtain ⟨width, m, n, integer, integer'⟩ := kinds
        rw [compareValues_integers integer integer', compareValues_integers integer' integer]
        exact Std.OrientedOrd.eq_swap
      · rw [compareValues_display reflexive same null null' fun width m n first second =>
            kinds ⟨width, m, n, first, second⟩,
          compareValues_display reflexive (fun bits bits' first second =>
            (same bits' bits second first).symm) null' null fun width m n first second =>
            kinds ⟨width, n, m, second, first⟩]
        exact Std.OrientedOrd.eq_swap

/-- Two integers `x < y` of one width, and a value of another kind whose display text
lies between theirs, although it is that of `y` that comes first. -/
structure Clash (x y z : Value) : Prop where
  integers : ∃ width m n, x.integer? = some (width, m) ∧ y.integer? = some (width, n) ∧ m < n ∧
    ∀ k, z.integer? ≠ some (width, k)
  present : z ≠ .null
  after : y.toDisplayString ≤ z.toDisplayString
  before : z.toDisplayString ≤ x.toDisplayString


/-- A clash closes a circle. -/
theorem Clash.compares (reflexive : PartialCmpReflexive) (clash : Clash x y z) :
    compareValues x y = .lt ∧
      compareValues y z = compare y.toDisplayString z.toDisplayString ∧
      compareValues z x = compare z.toDisplayString x.toDisplayString := by
  obtain ⟨width, m, n, first, second, less, other⟩ := clash.integers
  have int {v : Value} {k : Int} (integer : v.integer? = some (width, k)) :
      v ≠ .null ∧ ∀ bits, v ≠ .float8 bits := by
    cases v <;> cases integer <;> exact ⟨nofun, nofun⟩
  have apart : ∀ {v : Value} {k : Int}, v.integer? = some (width, k) →
      ∀ width' k' l, v.integer? = some (width', k') → z.integer? ≠ some (width', l) := by
    intro v k integer width' k' l integer'
    obtain ⟨rfl, -⟩ := Prod.mk.inj (Option.some.inj (integer'.symm.trans integer))
    exact other l
  refine ⟨?_, ?_, ?_⟩
  · rw [compareValues_integers first second]
    exact compare_lt_iff_lt.mpr less
  · exact compareValues_display reflexive (fun bits _ float => absurd float ((int second).2 bits))
      (int second).1 clash.present (apart second)
  · refine compareValues_display reflexive
      (fun _ bits _ float => absurd float ((int first).2 bits)) clash.present (int first).1 ?_
    exact fun width' k l integer integer' => apart first width' l k integer' integer

/-- Null comes first, so it is in no circle. -/
theorem ne_null_of_cycle (cycle : Cycle compareValues u v w) : u ≠ .null := by
  rintro rfl
  have last : w = .null := by
    by_contra present
    exact cycle.third (compareValues_null_right present)
  subst last
  have middle : v = .null := by
    by_contra present
    exact cycle.second (compareValues_null_right present)
  subst middle
  exact cycle.strict ⟨rfl, rfl, rfl⟩

/-- Integers of one width. -/
def SameWidth (u v : Value) : Prop :=
  ∃ width m n, u.integer? = some (width, m) ∧ v.integer? = some (width, n)

omit [Runtime] in
theorem SameWidth.symm (same : SameWidth u v) : SameWidth v u :=
  have ⟨width, m, n, first, second⟩ := same
  ⟨width, n, m, second, first⟩

omit [Runtime] in
theorem SameWidth.trans (same : SameWidth u v) (same' : SameWidth v w) : SameWidth u w := by
  obtain ⟨width, m, n, first, second⟩ := same
  obtain ⟨width', n', k, second', third⟩ := same'
  obtain ⟨rfl, -⟩ := Prod.mk.inj (Option.some.inj (second.symm.trans second'))
  exact ⟨width, m, k, first, third⟩

theorem compareValues_of_not_sameWidth (reflexive : PartialCmpReflexive)
    (same : SameIfFloats u v) (present : u ≠ .null) (present' : v ≠ .null)
    (apart : ¬SameWidth u v) :
    compareValues u v = compare u.toDisplayString v.toDisplayString :=
  compareValues_display reflexive same present present' fun width m n first second =>
    apart ⟨width, m, n, first, second⟩

/-- A circle whose first two elements are integers of one width, and the others not. -/
theorem clash_of_sameWidth (reflexive : PartialCmpReflexive)
    (same : ∀ a ∈ [u, v, w], ∀ b ∈ [u, v, w], SameIfFloats a b)
    (cycle : Cycle compareValues u v w) (integers : SameWidth u v) (apart : ¬SameWidth v w) :
    Clash u v w := by
  have present := ne_null_of_cycle cycle.rotate.rotate
  have second := compareValues_of_not_sameWidth reflexive (same v (by simp) w (by simp))
    (ne_null_of_cycle cycle.rotate) present apart
  have third := compareValues_of_not_sameWidth reflexive (same w (by simp) u (by simp)) present
    (ne_null_of_cycle cycle) fun ends => apart (ends.trans integers).symm
  have after : v.toDisplayString ≤ w.toDisplayString := by
    rw [← compare_le_iff_le, ← second]
    exact cycle.second
  have before : w.toDisplayString ≤ u.toDisplayString := by
    rw [← compare_le_iff_le, ← third]
    exact cycle.third
  obtain ⟨width, m, n, integer, integer'⟩ := integers
  have le : m ≤ n := by
    rw [← compare_le_iff_le, ← compareValues_integers integer integer']
    exact cycle.first
  refine ⟨⟨width, m, n, integer, integer', ?_, fun k other => apart ⟨width, n, k, integer', other⟩⟩,
    present, after, before⟩
  refine lt_of_le_of_ne le fun equal => ?_
  -- equal integers of one width have the same text, so all three texts are the same
  subst equal
  have values : u = v := (eq_of_integer? integer).trans (eq_of_integer? integer').symm
  subst values
  have texts := le_antisymm after before
  apply cycle.strict
  rw [second, third, texts, compareValues_integers integer integer]
  simp

/-- **Every circle is a clash**, seen from one of its elements. -/
theorem clash_of_cycle (reflexive : PartialCmpReflexive)
    (same : ∀ a ∈ [u, v, w], ∀ b ∈ [u, v, w], SameIfFloats a b)
    (cycle : Cycle compareValues u v w) : Clash u v w ∨ Clash v w u ∨ Clash w u v := by
  have rotated : ∀ a ∈ [v, w, u], ∀ b ∈ [v, w, u], SameIfFloats a b := by
    intro a inside b inside'
    exact same a (by simp at inside ⊢; tauto) b (by simp at inside' ⊢; tauto)
  have rotated' : ∀ a ∈ [w, u, v], ∀ b ∈ [w, u, v], SameIfFloats a b := by
    intro a inside b inside'
    exact same a (by simp at inside ⊢; tauto) b (by simp at inside' ⊢; tauto)
  by_cases first : SameWidth u v
  · by_cases second : SameWidth v w
    · -- all three are integers of one width
      exfalso
      obtain ⟨width, m, n, integer, integer'⟩ := first
      obtain ⟨width', n', k, again, integer''⟩ := second
      obtain ⟨rfl, rfl⟩ := Prod.mk.inj (Option.some.inj (integer'.symm.trans again))
      obtain ⟨le, le', le'', strict⟩ := cycle
      rw [compareValues_integers integer integer'] at le strict
      rw [compareValues_integers integer' integer''] at le' strict
      rw [compareValues_integers integer'' integer] at le'' strict
      rw [compare_le_iff_le] at le le' le''
      apply strict
      rw [compare_eq_iff_eq, compare_eq_iff_eq, compare_eq_iff_eq]
      omega
    · exact .inl (clash_of_sameWidth reflexive same cycle first second)
  · by_cases second : SameWidth v w
    · refine .inr (.inl (clash_of_sameWidth reflexive rotated cycle.rotate second fun third => ?_))
      exact first (second.trans third).symm
    · by_cases third : SameWidth w u
      · exact .inr (.inr
          (clash_of_sameWidth reflexive rotated' cycle.rotate.rotate third first))
      · -- all three are compared by their texts
        exfalso
        have present := ne_null_of_cycle cycle
        have present' := ne_null_of_cycle cycle.rotate
        have present'' := ne_null_of_cycle cycle.rotate.rotate
        obtain ⟨le, le', le'', strict⟩ := cycle
        rw [compareValues_of_not_sameWidth reflexive (same u (by simp) v (by simp)) present
          present' first] at le strict
        rw [compareValues_of_not_sameWidth reflexive (same v (by simp) w (by simp)) present'
          present'' second] at le' strict
        rw [compareValues_of_not_sameWidth reflexive (same w (by simp) u (by simp)) present''
          present third] at le'' strict
        rw [compare_le_iff_le] at le le' le''
        apply strict
        rw [compare_eq_iff_eq, compare_eq_iff_eq, compare_eq_iff_eq]
        exact ⟨le_antisymm le (le'.trans le''), le_antisymm le' (le''.trans le),
          le_antisymm le'' (le.trans le')⟩

end Values

section Floats

variable [Runtime] {row row' : List Value} {columns : List String} {expr : Expr}
  {bits bits' : UInt64}

theorem not_float_of_result {n : Int} :
    i32Result n ≠ .ok (.float8 bits) ∧ i64Result n ≠ .ok (.float8 bits) := by
  unfold i32Result i64Result
  constructor <;> split <;> simp

/-- A float comes from floats. -/
theorem floats_of_evalBinary {u v : Value} {op : BinaryOperator}
    (ran : evalBinary u op v = .ok (.float8 bits)) :
    ∃ b b', u = .float8 b ∧ v = .float8 b' := by
  cases op with
  | eq => cases (evalBinary_eq u v).symm.trans ran
  | notEq => cases u <;> cases v <;> cases ran
  | lt => cases evalBinary_lt.symm.trans ran
  | ltEq => cases evalBinary_ltEq.symm.trans ran
  | gt => cases evalBinary_gt.symm.trans ran
  | gtEq => cases evalBinary_gtEq.symm.trans ran
  | and | or | stringConcat | other => cases u <;> cases v <;> cases ran
  | plus | minus | multiply =>
      cases u <;> cases v <;> first
        | exact ⟨_, _, rfl, rfl⟩
        | exact absurd ran not_float_of_result.1
        | exact absurd ran not_float_of_result.2
        | cases ran

omit [Runtime] in
theorem not_float_of_columnValue {column : String} (noFloats : ∀ value ∈ row, value.isFloat = false)
    (ran : columnValue column row columns = .ok (.float8 bits)) : False := by
  unfold columnValue at ran
  dsimp only at ran
  split at ran
  · rename_i index _
    have value := Except.ok.inj ran
    rw [List.getD_eq_getElem?_getD] at value
    cases found : row[index]? with
    | none =>
        rw [found] at value
        cases value
    | some stored =>
        rw [found] at value
        have float := noFloats stored (List.mem_of_getElem? found)
        rw [show stored = .float8 bits from value] at float
        cases float
  · cases ran

/-- An expression that is a float on a row without floats is a constant. -/
theorem float_constant (noFloats : ∀ value ∈ row, value.isFloat = false)
    (ran : evalExpr expr row columns = .ok (.float8 bits))
    (ran' : evalExpr expr row' columns = .ok (.float8 bits')) : bits = bits' := by
  unfold evalExpr at ran ran'
  induction expr generalizing bits bits' with
  | value v => exact Value.float8.inj (Except.ok.inj (ran.symm.trans ran'))
  | identifier name => exact (not_float_of_columnValue noFloats ran).elim
  | compoundIdentifier parts =>
      unfold evalExprWithExcluded at ran
      split at ran
      · cases ran
      · exact (not_float_of_columnValue noFloats ran).elim
  | nested expr ih => exact ih ran ran'
  | isNull expr ih | isNotNull expr ih =>
      obtain ⟨v, -, same⟩ := except_bind_eq_ok.mp ran
      cases same
  | unaryOp op expr ih =>
      obtain ⟨v, first, same⟩ := except_bind_eq_ok.mp ran
      obtain ⟨v', first', same'⟩ := except_bind_eq_ok.mp ran'
      cases op with
      | not => cases v <;> cases same
      | minus =>
          cases v with
          | float8 b =>
              cases v' with
              | float8 b' =>
                  obtain rfl := ih first first'
                  exact Value.float8.inj (Except.ok.inj (same.symm.trans same'))
              | int4 n => exact absurd same' not_float_of_result.1
              | int8 n => exact absurd same' not_float_of_result.2
              | _ => cases same'
          | int4 n => exact absurd same not_float_of_result.1
          | int8 n => exact absurd same not_float_of_result.2
          | _ => cases same
      | other =>
          cases same
          cases same'
          exact ih first first'
  | binaryOp left op right ihLeft ihRight =>
      obtain ⟨l, first, rest⟩ := except_bind_eq_ok.mp ran
      obtain ⟨r, second, computed⟩ := except_bind_eq_ok.mp rest
      obtain ⟨l', first', rest'⟩ := except_bind_eq_ok.mp ran'
      obtain ⟨r', second', computed'⟩ := except_bind_eq_ok.mp rest'
      obtain ⟨b, c, rfl, rfl⟩ := floats_of_evalBinary computed
      obtain ⟨b', c', rfl, rfl⟩ := floats_of_evalBinary computed'
      obtain rfl := ihLeft first first'
      obtain rfl := ihRight second second'
      exact Value.float8.inj (Except.ok.inj (computed.symm.trans computed'))
  | function name first ih =>
      unfold evalExprWithExcluded at ran
      dsimp only at ran
      split at ran
      · cases ran
      · split at ran
        · obtain ⟨v, -, same⟩ := except_bind_eq_ok.mp ran
          cases v <;> cases same
        · split at ran
          · obtain ⟨v, -, same⟩ := except_bind_eq_ok.mp ran
            cases v <;> cases same
          · cases ran
  | functionArgs name args =>
      unfold evalExprWithExcluded at ran
      split at ran <;> cases ran
  | other => cases ran

end Floats

section Rows

variable [Runtime] {colNames : List String} {rows : List Row} {key : OrderByExpr}
  {rest keys : List OrderByExpr} {x y z : Row}

/-- The value a key has on a row, if its evaluation does not panic. -/
def keyValue (expr : Expr) (row : Row) (colNames : List String) : Value :=
  match evalExpr expr row.values colNames with
  | .ok value => value
  | .error _ => .null

/-- The comparison of one key, in its direction. -/
def keyOrder (key : OrderByExpr) (colNames : List String) (a b : Row) : Ordering :=
  let ord := compareValues (keyValue key.expr a colNames) (keyValue key.expr b colNames)
  if key.asc.getD true then ord else ord.swap

/-- Rows are compared by the first key, then by the others. -/
def rowOrder (keys : List OrderByExpr) (colNames : List String) : Row → Row → Ordering :=
  match keys with
  | [] => fun _ _ => .eq
  | key :: rest => lexicographic (keyOrder key colNames) (rowOrder rest colNames)

/-- The later keys leave two rows in the order the key has them in. -/
def KeepsOrder (key : OrderByExpr) (rest : List OrderByExpr) (colNames : List String)
    (a b : Row) : Prop :=
  if key.asc.getD true then rowOrder rest colNames a b ≠ .gt
  else rowOrder rest colNames b a ≠ .gt

/-- **Three rows that cannot be sorted**: all keys before some key tie on them, their
values of this key clash, and where the display text of the third value is that of one
of the others the later keys do not put the two rows apart. -/
def Circle (colNames : List String) : List OrderByExpr → Row → Row → Row → Prop
  | [], _, _, _ => False
  | key :: rest, x, y, z =>
      let value row := keyValue key.expr row colNames
      (Clash (value x) (value y) (value z) ∧
        ((value y).toDisplayString = (value z).toDisplayString → KeepsOrder key rest colNames y z) ∧
        ((value z).toDisplayString = (value x).toDisplayString →
          KeepsOrder key rest colNames z x)) ∨
      (compareValues (value x) (value y) = .eq ∧ compareValues (value y) (value z) = .eq ∧
        compareValues (value z) (value x) = .eq ∧ Circle colNames rest x y z)

/-- The comparators of the keys are oriented on rows whose values of a key are the same
float, if they are floats. -/
theorem orientedOn_rowOrder (reflexive : PartialCmpReflexive)
    (same : ∀ key ∈ keys, ∀ a ∈ rows, ∀ b ∈ rows,
      SameIfFloats (keyValue key.expr a colNames) (keyValue key.expr b colNames)) :
    OrientedOn (rowOrder keys colNames) rows := by
  induction keys with
  | nil => exact fun _ _ _ _ => rfl
  | cons key rest ih =>
      obtain ⟨first, later⟩ := List.forall_mem_cons.mp same
      refine OrientedOn.lexicographic (fun a inside b inside' => ?_) (ih later)
      unfold keyOrder
      dsimp only
      rw [compareValues_swap reflexive (first a inside b inside')]
      split <;> rfl

/-- The values of a key go round in a circle that the later keys do not break. -/
structure KeyCycle (key : OrderByExpr) (rest : List OrderByExpr) (colNames : List String)
    (a b c : Row) : Prop where
  values : Cycle compareValues (keyValue key.expr a colNames) (keyValue key.expr b colNames)
    (keyValue key.expr c colNames)
  first : compareValues (keyValue key.expr a colNames) (keyValue key.expr b colNames) = .eq →
    KeepsOrder key rest colNames a b
  second : compareValues (keyValue key.expr b colNames) (keyValue key.expr c colNames) = .eq →
    KeepsOrder key rest colNames b c
  third : compareValues (keyValue key.expr c colNames) (keyValue key.expr a colNames) = .eq →
    KeepsOrder key rest colNames c a

theorem KeyCycle.rotate {a b c : Row} (cycle : KeyCycle key rest colNames a b c) :
    KeyCycle key rest colNames b c a :=
  ⟨cycle.values.rotate, cycle.second, cycle.third, cycle.first⟩

/-- A circle of rows in which the key does not tie throughout runs in the direction of
the key. -/
theorem keyCycle_iff {a b c : Row}
    (oriented : OrientedOn (fun a b => compareValues (keyValue key.expr a colNames)
      (keyValue key.expr b colNames)) [a, b, c]) :
    (Cycle (keyOrder key colNames) a b c ∧
      (keyOrder key colNames a b = .eq → rowOrder rest colNames a b ≠ .gt) ∧
      (keyOrder key colNames b c = .eq → rowOrder rest colNames b c ≠ .gt) ∧
      (keyOrder key colNames c a = .eq → rowOrder rest colNames c a ≠ .gt)) ↔
    if key.asc.getD true then KeyCycle key rest colNames a b c
    else KeyCycle key rest colNames c b a := by
  cases direction : key.asc.getD true with
  | true =>
      have order : keyOrder key colNames = fun a b =>
          compareValues (keyValue key.expr a colNames) (keyValue key.expr b colNames) := by
        funext a b
        rw [keyOrder, direction]
        rfl
      have keeps : KeepsOrder key rest colNames = fun a b =>
          rowOrder rest colNames a b ≠ .gt := by
        funext a b
        rw [KeepsOrder, direction]
        rfl
      rw [order, if_pos rfl]
      constructor
      · rintro ⟨cycle, first, second, third⟩
        exact ⟨⟨cycle.first, cycle.second, cycle.third, cycle.strict⟩, keeps ▸ first,
          keeps ▸ second, keeps ▸ third⟩
      · rintro ⟨cycle, first, second, third⟩
        rw [keeps] at first second third
        exact ⟨⟨cycle.first, cycle.second, cycle.third, cycle.strict⟩, first, second, third⟩
  | false =>
      have order : keyOrder key colNames = fun a b =>
          (compareValues (keyValue key.expr a colNames) (keyValue key.expr b colNames)).swap := by
        funext a b
        rw [keyOrder, direction]
        rfl
      have keeps : KeepsOrder key rest colNames = fun a b =>
          rowOrder rest colNames b a ≠ .gt := by
        funext a b
        rw [KeepsOrder, direction]
        rfl
      have back : ∀ p ∈ [a, b, c], ∀ q ∈ [a, b, c], keyOrder key colNames p q =
          compareValues (keyValue key.expr q colNames) (keyValue key.expr p colNames) := by
        intro p inside q inside'
        rw [order]
        exact (oriented p inside q inside').symm
      rw [back a (by simp) b (by simp), back b (by simp) c (by simp), back c (by simp) a (by simp),
        if_neg Bool.false_ne_true]
      constructor
      · rintro ⟨cycle, first, second, third⟩
        rw [order] at cycle
        have values := cycle.of_swap oriented
        exact ⟨⟨values.first, values.second, values.third, values.strict⟩, keeps ▸ second,
          keeps ▸ first, keeps ▸ third⟩
      · rintro ⟨cycle, first, second, third⟩
        rw [keeps] at first second third
        refine ⟨⟨?_, ?_, ?_, ?_⟩, second, first, third⟩
        · rw [back a (by simp) b (by simp)]
          exact cycle.second
        · rw [back b (by simp) c (by simp)]
          exact cycle.first
        · rw [back c (by simp) a (by simp)]
          exact cycle.third
        · rw [back a (by simp) b (by simp), back b (by simp) c (by simp),
            back c (by simp) a (by simp)]
          exact fun ⟨first, second, third⟩ => cycle.strict ⟨second, first, third⟩

/-- A clash is a circle if the later keys keep its ties. -/
theorem keyCycle_of_clash (reflexive : PartialCmpReflexive)
    (clash : Clash (keyValue key.expr x colNames) (keyValue key.expr y colNames)
      (keyValue key.expr z colNames))
    (after : (keyValue key.expr y colNames).toDisplayString =
      (keyValue key.expr z colNames).toDisplayString → KeepsOrder key rest colNames y z)
    (before : (keyValue key.expr z colNames).toDisplayString =
      (keyValue key.expr x colNames).toDisplayString → KeepsOrder key rest colNames z x) :
    KeyCycle key rest colNames x y z := by
  obtain ⟨less, second, third⟩ := clash.compares reflexive
  refine ⟨⟨by rw [less]; simp, ?_, ?_, fun ties => ?_⟩, fun tie => ?_, fun tie => ?_, fun tie => ?_⟩
  · rw [second, compare_le_iff_le]
    exact clash.after
  · rw [third, compare_le_iff_le]
    exact clash.before
  · rw [less] at ties
    cases ties.1
  · rw [less] at tie
    cases tie
  · rw [second, compare_eq_iff_eq] at tie
    exact after tie
  · rw [third, compare_eq_iff_eq] at tie
    exact before tie

/-- A circle of the values of a key is one that the condition names. -/
theorem KeyCycle.circle (reflexive : PartialCmpReflexive)
    (cycle : KeyCycle key rest colNames x y z)
    (clash : Clash (keyValue key.expr x colNames) (keyValue key.expr y colNames)
      (keyValue key.expr z colNames)) : Circle colNames (key :: rest) x y z := by
  obtain ⟨-, second, third⟩ := clash.compares reflexive
  refine .inl ⟨clash, fun same => cycle.second ?_, fun same => cycle.third ?_⟩
  · rw [second, compare_eq_iff_eq]
    exact same
  · rw [third, compare_eq_iff_eq]
    exact same

theorem keyOrder_eq_eq {a b : Row} : keyOrder key colNames a b = .eq ↔
    compareValues (keyValue key.expr a colNames) (keyValue key.expr b colNames) = .eq := by
  unfold keyOrder
  dsimp only
  cases compareValues (keyValue key.expr a colNames) (keyValue key.expr b colNames) <;> split <;>
    simp

/-- **Rows go round in a circle exactly if some of them cannot be sorted.** -/
theorem exists_cycle_iff (reflexive : PartialCmpReflexive)
    (same : ∀ key ∈ keys, ∀ a ∈ rows, ∀ b ∈ rows,
      SameIfFloats (keyValue key.expr a colNames) (keyValue key.expr b colNames)) :
    (∃ p ∈ rows, ∃ q ∈ rows, ∃ r ∈ rows, Cycle (rowOrder keys colNames) p q r) ↔
      ∃ x ∈ rows, ∃ y ∈ rows, ∃ z ∈ rows, Circle colNames keys x y z := by
  induction keys generalizing rows with
  | nil =>
      constructor
      · rintro ⟨p, -, q, -, r, -, cycle⟩
        exact absurd ⟨rfl, rfl, rfl⟩ cycle.strict
      · rintro ⟨x, -, y, -, z, -, circle⟩
        exact circle.elim
  | cons key rest ih =>
      obtain ⟨first, later⟩ := List.forall_mem_cons.mp same
      have oriented : ∀ sub : List Row, sub ⊆ rows →
          OrientedOn (fun a b => compareValues (keyValue key.expr a colNames)
            (keyValue key.expr b colNames)) sub := fun sub inside a inA b inB =>
        compareValues_swap reflexive (first a (inside inA) b (inside inB))
      have within : ∀ {a b c : Row}, a ∈ rows → b ∈ rows → c ∈ rows → [a, b, c] ⊆ rows := by
        intro a b c inA inB inC
        simp only [List.cons_subset, List.nil_subset, and_true]
        exact ⟨inA, inB, inC⟩
      have restSame : ∀ sub : List Row, sub ⊆ rows → ∀ key ∈ rest, ∀ a ∈ sub, ∀ b ∈ sub,
          SameIfFloats (keyValue key.expr a colNames) (keyValue key.expr b colNames) :=
        fun sub inside key member a inA b inB => later key member a (inside inA) b (inside inB)
      constructor
      · rintro ⟨p, inP, q, inQ, r, inR, cycle⟩
        have sub := within inP inQ inR
        rcases cycle_lexicographic_iff.mp cycle with broken | ⟨tie₁, tie₂, tie₃, cycle⟩
        · have keyed : ∃ a ∈ rows, ∃ b ∈ rows, ∃ c ∈ rows, KeyCycle key rest colNames a b c := by
            have directed := (keyCycle_iff (oriented _ sub)).mp broken
            split at directed
            · exact ⟨p, inP, q, inQ, r, inR, directed⟩
            · exact ⟨r, inR, q, inQ, p, inP, directed⟩
          obtain ⟨a, inA, b, inB, c, inC, keyed⟩ := keyed
          have floats : ∀ u ∈ [a, b, c].map (keyValue key.expr · colNames),
              ∀ v ∈ [a, b, c].map (keyValue key.expr · colNames), SameIfFloats u v := by
            simp only [List.forall_mem_map]
            exact fun a' inA' b' inB' =>
              first a' (within inA inB inC inA') b' (within inA inB inC inB')
          rcases clash_of_cycle reflexive floats keyed.values with clash | clash | clash
          · exact ⟨a, inA, b, inB, c, inC, keyed.circle reflexive clash⟩
          · exact ⟨b, inB, c, inC, a, inA, keyed.rotate.circle reflexive clash⟩
          · exact ⟨c, inC, a, inA, b, inB, keyed.rotate.rotate.circle reflexive clash⟩
        · obtain ⟨x, inX, y, inY, z, inZ, circle⟩ := (ih (restSame _ sub)).mp
            ⟨p, by simp, q, by simp, r, by simp, cycle⟩
          have tied := (oriented _ sub).all_eq (keyOrder_eq_eq.mp tie₁) (keyOrder_eq_eq.mp tie₂)
            (keyOrder_eq_eq.mp tie₃)
          exact ⟨x, sub inX, y, sub inY, z, sub inZ, .inr ⟨tied x inX y inY, tied y inY z inZ,
            tied z inZ x inX, circle⟩⟩
      · rintro ⟨x, inX, y, inY, z, inZ, ⟨clash, after, before⟩ | ⟨tie₁, tie₂, tie₃, circle⟩⟩
        · have keyed := keyCycle_of_clash reflexive clash after before
          cases direction : key.asc.getD true with
          | true =>
              refine ⟨x, inX, y, inY, z, inZ, cycle_lexicographic_iff.mpr (.inl ?_)⟩
              apply (keyCycle_iff (oriented _ (within inX inY inZ))).mpr
              rwa [direction, if_pos rfl]
          | false =>
              refine ⟨z, inZ, y, inY, x, inX, cycle_lexicographic_iff.mpr (.inl ?_)⟩
              apply (keyCycle_iff (oriented _ (within inZ inY inX))).mpr
              rwa [direction, if_neg Bool.false_ne_true]
        · have sub := within inX inY inZ
          obtain ⟨p, inP, q, inQ, r, inR, cycle⟩ := (ih (restSame _ sub)).mpr
            ⟨x, by simp, y, by simp, z, by simp, circle⟩
          have tied := (oriented _ sub).all_eq tie₁ tie₂ tie₃
          refine ⟨p, sub inP, q, sub inQ, r, sub inR, cycle_lexicographic_iff.mpr (.inr ?_)⟩
          rw [keyOrder_eq_eq, keyOrder_eq_eq, keyOrder_eq_eq]
          exact ⟨tied p inP q inQ, tied q inQ r inR, tied r inR p inP, cycle⟩

/-- No key panics on a row. Only a debug build has panics here, where integers
overflow. -/
def KeysReturn (keys : List OrderByExpr) (colNames : List String) (row : Row) : Prop :=
  ∀ key ∈ keys, ∀ reason, evalExpr key.expr row.values colNames ≠ .error (.panic reason)

theorem sortKey_eq_ok {expr : Expr} {row : Row} {value : Value} :
    sortKey expr row colNames = .ok value ↔
      (∀ reason, evalExpr expr row.values colNames ≠ .error (.panic reason)) ∧
        keyValue expr row colNames = value := by
  unfold sortKey keyValue
  cases evalExpr expr row.values colNames with
  | ok computed => simp
  | error failure => cases failure <;> simp

/-- The comparison of rows on which no key panics. -/
theorem compareRows_eq {a b : Row} (returns : KeysReturn keys colNames a)
    (returns' : KeysReturn keys colNames b) :
    compareRows keys colNames a b = .ok (rowOrder keys colNames a b) := by
  induction keys with
  | nil => rfl
  | cons key rest ih =>
      obtain ⟨first, later⟩ := List.forall_mem_cons.mp returns
      obtain ⟨first', later'⟩ := List.forall_mem_cons.mp returns'
      refine except_bind_eq_ok.mpr ⟨_, sortKey_eq_ok.mpr ⟨first, rfl⟩,
        except_bind_eq_ok.mpr ⟨_, sortKey_eq_ok.mpr ⟨first', rfl⟩, ?_⟩⟩
      unfold rowOrder lexicographic keyOrder
      dsimp only
      rw [ih later later']
      cases key.asc.getD true <;>
        cases compareValues (keyValue key.expr a colNames) (keyValue key.expr b colNames) <;> rfl

theorem compareValues_self (reflexive : PartialCmpReflexive) (u : Value) :
    compareValues u u = .eq := by
  have same : SameIfFloats u u := fun bits bits' float float' =>
    Value.float8.inj (float.symm.trans float')
  have swapped := compareValues_swap reflexive same
  cases outcome : compareValues u u with
  | eq => rfl
  | lt | gt =>
      rw [outcome] at swapped
      cases swapped

/-- A row is compared with itself by all keys, so none of them panics on it. -/
theorem keysReturn_of_compareRows (reflexive : PartialCmpReflexive) {a : Row} {ord : Ordering}
    (ran : compareRows keys colNames a a = .ok ord) : KeysReturn keys colNames a := by
  induction keys with
  | nil => exact fun _ member => (by cases member)
  | cons key rest ih =>
      obtain ⟨value, first, ran⟩ := except_bind_eq_ok.mp ran
      obtain ⟨value', second, ran⟩ := except_bind_eq_ok.mp ran
      obtain rfl : value = value' := Except.ok.inj (first.symm.trans second)
      rw [compareValues_self reflexive] at ran
      exact List.forall_mem_cons.mpr ⟨(sortKey_eq_ok.mp first).1, ih ran⟩

/-- A sort whose comparisons do not panic is an insertion sort. -/
theorem insertSorted_eq {cmp : Row → Row → Ordering} {row : Row}
    (compares : ∀ other ∈ rows, compareRows keys colNames row other = .ok (cmp row other)) :
    insertSorted keys colNames row rows =
      .ok (rows.orderedInsert (fun a b => cmp a b ≠ .gt) row) := by
  induction rows with
  | nil => rfl
  | cons other rest ih =>
      obtain ⟨first, later⟩ := List.forall_mem_cons.mp compares
      refine except_bind_eq_ok.mpr ⟨_, first, ?_⟩
      rw [List.orderedInsert_cons, ih later]
      split <;> rfl

theorem sortRows_eq {cmp : Row → Row → Ordering}
    (compares : ∀ a ∈ rows, ∀ b ∈ rows, compareRows keys colNames a b = .ok (cmp a b)) :
    sortRows rows keys colNames = .ok (rows.insertionSort fun a b => cmp a b ≠ .gt) := by
  induction rows with
  | nil => rfl
  | cons row rest ih =>
      refine except_bind_eq_ok.mpr ⟨_, ih fun a inA b inB => compares a (List.mem_cons_of_mem _ inA)
        b (List.mem_cons_of_mem _ inB), ?_⟩
      refine insertSorted_eq fun other member => compares row List.mem_cons_self other ?_
      exact List.mem_cons_of_mem _ ((List.perm_insertionSort _ rest).mem_iff.mp member)

/-- The rows are sorted by a comparator that is a total preorder on them. -/
structure SortsBy (cmp : Row → Row → Ordering) (rows : List Row) (keys : List OrderByExpr)
    (colNames : List String) : Prop where
  compares : ∀ a ∈ rows, ∀ b ∈ rows, compareRows keys colNames a b = .ok (cmp a b)
  reflexive : ∀ a ∈ rows, cmp a a = .eq
  oriented : OrientedOn cmp rows
  transitive : TransitiveOn cmp rows
  sorts : ∃ sorted, sortRows rows keys colNames = .ok sorted ∧ sorted.Perm rows ∧
    sorted.Pairwise fun a b => cmp a b ≠ .gt

/-- The comparison of the rows returns, and it is a total preorder. -/
def SortsByPreorder (rows : List Row) (keys : List OrderByExpr) (colNames : List String) : Prop :=
  ∃ cmp, SortsBy cmp rows keys colNames

theorem sameIfFloats_keyValue {expr : Expr} {a b : Row}
    (noFloats : ∀ value ∈ a.values, value.isFloat = false) :
    SameIfFloats (keyValue expr a colNames) (keyValue expr b colNames) := by
  have evaluated : ∀ {row : Row} {bits : UInt64}, keyValue expr row colNames = .float8 bits →
      evalExpr expr row.values colNames = .ok (.float8 bits) := by
    intro row bits float
    unfold keyValue at float
    split at float
    · rename_i ran
      rw [ran, float]
    · cases float
  exact fun bits bits' float float' => float_constant noFloats (evaluated float) (evaluated float')

/-- **`ORDER BY` sorts by a total preorder exactly if no key panics and no three rows
clash.** On rows without floats the comparator that the sort is given returns, is
reflexive, antisymmetric and transitive, and the output is sorted, if and only if no
key overflows in a debug build and no three rows are such that the comparison of two
integers by value contradicts that of a third value with both of them by text. -/
theorem sorts_by_preorder_iff (reflexive : PartialCmpReflexive)
    (noFloats : ∀ row ∈ rows, ∀ value ∈ row.values, value.isFloat = false) :
    SortsByPreorder rows keys colNames ↔
      (∀ row ∈ rows, KeysReturn keys colNames row) ∧
        ∀ x ∈ rows, ∀ y ∈ rows, ∀ z ∈ rows, ¬Circle colNames keys x y z := by
  have same : ∀ key ∈ keys, ∀ a ∈ rows, ∀ b ∈ rows,
      SameIfFloats (keyValue key.expr a colNames) (keyValue key.expr b colNames) :=
    fun key _ a inA b _ => sameIfFloats_keyValue (noFloats a inA)
  have oriented := orientedOn_rowOrder reflexive same
  have circles : TransitiveOn (rowOrder keys colNames) rows ↔
      ∀ x ∈ rows, ∀ y ∈ rows, ∀ z ∈ rows, ¬Circle colNames keys x y z := by
    rw [oriented.transitiveOn_iff, ← not_iff_not]
    push Not
    exact exists_cycle_iff reflexive same
  rw [← circles]
  constructor
  · rintro ⟨cmp, sorts⟩
    have returns : ∀ row ∈ rows, KeysReturn keys colNames row := fun row inside =>
      keysReturn_of_compareRows reflexive (sorts.compares row inside row inside)
    have order : ∀ a ∈ rows, ∀ b ∈ rows, cmp a b = rowOrder keys colNames a b :=
      fun a inA b inB => Except.ok.inj ((sorts.compares a inA b inB).symm.trans
        (compareRows_eq (returns a inA) (returns b inB)))
    refine ⟨returns, fun a inA b inB c inC => ?_⟩
    rw [← order a inA b inB, ← order b inB c inC, ← order a inA c inC]
    exact sorts.transitive a inA b inB c inC
  · rintro ⟨returns, transitive⟩
    have compares : ∀ a ∈ rows, ∀ b ∈ rows,
        compareRows keys colNames a b = .ok (rowOrder keys colNames a b) :=
      fun a inA b inB => compareRows_eq (returns a inA) (returns b inB)
    exact ⟨rowOrder keys colNames, compares, fun a inside => oriented.self inside, oriented,
      transitive, _, sortRows_eq compares, List.perm_insertionSort _ rows,
      insertionSort_pairwise oriented transitive⟩

end Rows

/-- `ORDER BY a`. -/
def byA : List OrderByExpr := [⟨.identifier "a", none⟩]

/-- `CREATE TABLE t (a VARCHAR(5))` and `INSERT INTO t VALUES (9), (10), ('5')`. -/
def varcharRows : List Statement :=
  [.createTable ["t"] [⟨"a", .varchar (some (.integerLength 5)), []⟩] [],
    .insert ⟨["t"], [], some ⟨.values [[.value (.number "9")], [.value (.number "10")],
      [.value (.singleQuotedString "5")]], none, none, none⟩, none⟩]

/-- Ten comes before `5`, which comes before nine, which comes before ten. -/
theorem varchar_not_sorted :
    (@runStatements Runtime.reference ddlOutside .fresh varcharRows).map
        (fun s => (s.storage.scan "t").map Prod.snd) =
      some [.new [.int8 9], .new [.int8 10], .new [.text "5"]] ∧
    @compareRows Runtime.reference byA ["a"] (.new [.int8 10]) (.new [.text "5"]) = .ok .lt ∧
    @compareRows Runtime.reference byA ["a"] (.new [.text "5"]) (.new [.int8 9]) = .ok .lt ∧
    @compareRows Runtime.reference byA ["a"] (.new [.int8 9]) (.new [.int8 10]) = .ok .lt ∧
    ¬ @SortsByPreorder Runtime.reference [.new [.int8 9], .new [.int8 10], .new [.text "5"]]
      byA ["a"] := by
  have first : @compareRows Runtime.reference byA ["a"] (.new [.int8 10]) (.new [.text "5"]) =
      .ok .lt := by decide +kernel
  have second : @compareRows Runtime.reference byA ["a"] (.new [.text "5"]) (.new [.int8 9]) =
      .ok .lt := by decide +kernel
  have third : @compareRows Runtime.reference byA ["a"] (.new [.int8 10]) (.new [.int8 9]) =
      .ok .gt := by decide +kernel
  refine ⟨by decide +kernel, first, second, by decide +kernel, fun sorted => ?_⟩
  obtain ⟨cmp, compares, -, -, transitive, -⟩ := sorted
  have order {a b : Row} {ord : Ordering}
      (inA : a ∈ [Row.new [.int8 9], .new [.int8 10], .new [.text "5"]])
      (inB : b ∈ [Row.new [.int8 9], .new [.int8 10], .new [.text "5"]])
      (ran : @compareRows Runtime.reference byA ["a"] a b = .ok ord) : cmp a b = ord :=
    Except.ok.inj ((compares a inA b inB).symm.trans ran)
  refine transitive (.new [.int8 10]) (by simp) (.new [.text "5"]) (by simp) (.new [.int8 9])
    (by simp) ?_ ?_ (order (by simp) (by simp) third)
  · rw [order (by simp) (by simp) first]
    simp
  · rw [order (by simp) (by simp) second]
    simp

/-- A runtime in which a float compares equal to itself. -/
@[reducible] def Runtime.selfComparing : Runtime :=
  { Runtime.reference with
    f64PartialCmp := fun a b => if a = b then some .eq else Runtime.reference.f64PartialCmp a b }

/-- Integers and a null, in descending order. -/
theorem sorts_by_preorder_iff_integers :
    @SortsByPreorder Runtime.selfComparing [.new [.int8 9], .new [.null], .new [.int8 10]]
      [⟨.identifier "a", some false⟩] ["a"] := by
  let _ := Runtime.selfComparing
  have reflexive : PartialCmpReflexive := fun bits => by
    change (if bits = bits then some Ordering.eq else _).getD .eq = .eq
    rw [if_pos rfl]
    rfl
  have returns : ∀ row ∈ [Row.new [.int8 9], .new [.null], .new [.int8 10]],
      KeysReturn [⟨.identifier "a", some false⟩] ["a"] row := by
    intro row member key listed reason failed
    obtain rfl := List.mem_singleton.mp listed
    simp only [List.mem_cons, List.not_mem_nil, or_false] at member
    obtain ⟨value, ran⟩ : ∃ value, evalExpr (.identifier "a") row.values ["a"] = .ok value := by
      rcases member with rfl | rfl | rfl <;> exact ⟨_, rfl⟩
    rw [ran] at failed
    cases failed
  have wide : ∀ row ∈ [Row.new [.int8 9], .new [.null], .new [.int8 10]],
      keyValue (.identifier "a") row ["a"] = .null ∨
        ∃ k, (keyValue (.identifier "a") row ["a"]).integer? = some (.int8, k) := by
    intro row member
    simp only [List.mem_cons, List.not_mem_nil, or_false] at member
    rcases member with rfl | rfl | rfl
    · exact .inr ⟨9, by decide +kernel⟩
    · exact .inl (by decide +kernel)
    · exact .inr ⟨10, by decide +kernel⟩
  refine (sorts_by_preorder_iff reflexive (by decide)).mpr
    ⟨returns, fun x inX y inY z inZ circle => ?_⟩
  rcases circle with ⟨clash, -, -⟩ | ⟨-, -, -, none⟩
  · obtain ⟨width, m, n, first, -, -, other⟩ := clash.integers
    rcases wide z inZ with null | ⟨k, third⟩
    · exact clash.present null
    · rcases wide x inX with null | ⟨l, first'⟩
      · dsimp only at first
        rw [null] at first
        cases first
      · obtain ⟨rfl, -⟩ := Prod.mk.inj (Option.some.inj (first.symm.trans first'))
        exact other k third
  · exact none

end MoodengSQL
