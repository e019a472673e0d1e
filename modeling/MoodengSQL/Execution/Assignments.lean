import MoodengSQL.Execution.Inserted

/-!
# `SET` assignments

`UPDATE` and `DO UPDATE` overwrite the row while later assignments still read it.
The result is that of a simultaneous assignment as long as no assignment is disturbed
by the ones before it.
-/

namespace MoodengSQL

open Foundation Foundation.Effect Relation Std

section Reads

variable [Runtime] {row row' : List Value} {columns : List String} {excluded : Option (List Value)}

/-- The position a name is resolved to. -/
def namePosition (columns : List String) (column : String) : Option Nat :=
  columns.findIdx? fun name =>
    eqIgnoreAsciiCase name column || eqIgnoreAsciiCase name (bareName column)

/-- The positions of the row that an expression reads. -/
def Expr.reads (columns : List String) : Expr → List Nat
  | .identifier name => (namePosition columns name).toList
  | .compoundIdentifier parts =>
      if 2 ≤ parts.length ∧ eqIgnoreAsciiCase (parts.headD "") "excluded" then []
      else (namePosition columns (compoundName parts)).toList
  | .binaryOp left _ right => left.reads columns ++ right.reads columns
  | .unaryOp _ expr | .isNull expr | .isNotNull expr | .nested expr | .function _ expr =>
      expr.reads columns
  | _ => []

omit [Runtime] in
theorem columnValue_congr {column : String}
    (same : ∀ i ∈ (namePosition columns column).toList, row.getD i .null = row'.getD i .null) :
    columnValue column row columns = columnValue column row' columns := by
  cases position : namePosition columns column with
  | none =>
      unfold namePosition at position
      simp only [columnValue, position]
  | some index =>
      have member : index ∈ (namePosition columns column).toList := by
        rw [position]
        exact List.mem_singleton.mpr rfl
      have read := same index member
      unfold namePosition at position
      simp only [columnValue, position, read]

/-- An expression has the same value on rows that agree where it reads them. -/
theorem evalExprWithExcluded_congr {expr : Expr}
    (same : ∀ i ∈ expr.reads columns, row.getD i .null = row'.getD i .null) :
    evalExprWithExcluded row columns excluded expr =
      evalExprWithExcluded row' columns excluded expr := by
  induction expr with
  | identifier name => exact columnValue_congr same
  | compoundIdentifier parts =>
      unfold evalExprWithExcluded
      unfold Expr.reads at same
      split
      · rfl
      · rename_i plain
        rw [if_neg plain] at same
        exact columnValue_congr same
  | binaryOp left op right ihLeft ihRight =>
      obtain ⟨first, second⟩ := List.forall_mem_append.mp same
      rw [evalExprWithExcluded, evalExprWithExcluded, ihLeft first, ihRight second]
  | unaryOp op expr ih | isNull expr ih | isNotNull expr ih | nested expr ih | function _ expr ih =>
      simp only [evalExprWithExcluded, ih same]
  | _ => rfl

end Reads

section Assignments

variable [Runtime] {schema : TableSchema} {excluded : Option (List Value)} {row : List Value}

/-- An assignment sets the column at a position to a value, when its expression is
evaluated on a row and coerced. -/
structure Sets (schema : TableSchema) (excluded : Option (List Value)) (row : List Value)
    (assign : Assignment) (set : Nat × Value) : Prop where
  target : Catalog.columnIndex schema assign.target.column = some set.1
  value : ∃ column v, schema.columns[set.1]? = some column ∧
    evalExprWithExcluded row schema.colNames excluded assign.value = .ok v ∧
    v.coerceTo column.dataType = .ok set.2

/-- A row with the columns at some positions replaced. -/
def replaced (row : List Value) (sets : List (Nat × Value)) : List Value :=
  sets.foldl (fun row set => row.set set.1 set.2) row

/-- **The assignments set distinct columns**, each to the value of its expression on
the row. -/
structure SetsDistinct (schema : TableSchema) (excluded : Option (List Value))
    (row : List Value) (assignments : List Assignment) (sets : List (Nat × Value)) : Prop where
  evaluated : List.Forall₂ (Sets schema excluded row) assignments sets
  distinct : (sets.map Prod.fst).Nodup
  width : row.length = schema.columns.length

/-- No assignment is disturbed by those before it: with their columns replaced it
sets its column to the same value. -/
def Undisturbed (schema : TableSchema) (excluded : Option (List Value)) (row : List Value)
    (assignments : List Assignment) (sets : List (Nat × Value)) : Prop :=
  ∀ k assign set, assignments[k]? = some assign → sets[k]? = some set →
    Sets schema excluded (replaced row (sets.take k)) assign set

omit [Runtime] in
/-- The order of the replacements of distinct columns does not matter. -/
theorem replaced_perm {sets sets' : List (Nat × Value)} (perm : sets.Perm sets')
    (distinct : (sets.map Prod.fst).Nodup) : replaced row sets = replaced row sets' := by
  refine perm.foldl_eq' (fun first member second member' row => ?_) row
  by_cases same : first.1 = second.1
  · rw [List.inj_on_of_nodup_map distinct member member' same]
  · exact List.set_comm _ _ same

omit [Runtime] in
theorem replaced_cons (set : Nat × Value) (sets : List (Nat × Value)) :
    replaced row (set :: sets) = replaced (row.set set.1 set.2) sets := rfl

omit [Runtime] in
/-- A column that is not replaced is as it was. -/
theorem replaced_getElem?_of_not_mem {sets : List (Nat × Value)} {index : Nat}
    (apart : index ∉ sets.map Prod.fst) : (replaced row sets)[index]? = row[index]? := by
  induction sets generalizing row with
  | nil => rfl
  | cons set rest ih =>
      obtain ⟨differ, apart⟩ := List.ne_and_not_mem_of_not_mem_cons apart
      rw [replaced_cons, ih apart, List.getElem?_set_ne (Ne.symm differ)]

theorem undisturbed_cons {assign : Assignment} {rest : List Assignment} {set : Nat × Value}
    {sets : List (Nat × Value)} :
    Undisturbed schema excluded row (assign :: rest) (set :: sets) ↔
      Sets schema excluded row assign set ∧
        Undisturbed schema excluded (row.set set.1 set.2) rest sets := by
  constructor
  · intro undisturbed
    exact ⟨undisturbed 0 assign set rfl rfl,
      fun k assign' set' here here' => undisturbed (k + 1) assign' set' here here'⟩
  · rintro ⟨first, later⟩ k assign' set' here here'
    cases k with
    | zero =>
        cases here
        cases here'
        exact first
    | succ k => exact later k assign' set' here here'

/-- What the loop does with an assignment to a column of the row. -/
theorem assignAll_cons {assign : Assignment} {rest : List Assignment} {index : Nat}
    {result : List Value}
    (target : Catalog.columnIndex schema assign.target.column = some index)
    (within : index < row.length) :
    assignAll schema excluded (assign :: rest) row = .ok result ↔
      ∃ value, Sets schema excluded row assign (index, value) ∧
        assignAll schema excluded rest (row.set index value) = .ok result := by
  rw [assignAll, assignmentValueWithExcluded]
  constructor
  · intro ran
    obtain ⟨named, assigned, ran⟩ := except_bind_eq_ok.mp ran
    obtain ⟨v, evaluated, same⟩ := except_bind_eq_ok.mp assigned
    cases same
    dsimp only at ran
    rw [target] at ran
    dsimp only at ran
    cases typed : schema.columns[index]? with
    | none =>
        rw [typed] at ran
        cases ran
    | some column =>
        rw [typed] at ran
        obtain ⟨value, coerced, ran⟩ := except_bind_eq_ok.mp ran
        rw [if_pos within] at ran
        exact ⟨value, ⟨target, column, v, typed, evaluated, coerced⟩, ran⟩
  · rintro ⟨value, ⟨-, column, v, typed, evaluated, coerced⟩, ran⟩
    refine except_bind_eq_ok.mpr ⟨_, except_bind_eq_ok.mpr ⟨v, evaluated, rfl⟩, ?_⟩
    dsimp only
    rw [target]
    dsimp only at typed ⊢
    rw [typed]
    refine except_bind_eq_ok.mpr ⟨value, coerced, ?_⟩
    rwa [if_pos within]

/-- The loop leaves a column alone that is no target. -/
theorem assignAll_getElem?_of_not_mem {assignments : List Assignment}
    {sets : List (Nat × Value)} {result : List Value} {index : Nat}
    (targets : List.Forall₂
      (fun assign set => Catalog.columnIndex schema assign.target.column = some set.1)
      assignments sets)
    (within : ∀ set ∈ sets, set.1 < row.length) (apart : index ∉ sets.map Prod.fst)
    (ran : assignAll schema excluded assignments row = .ok result) :
    result[index]? = row[index]? := by
  induction targets generalizing row with
  | nil =>
      cases ran
      rfl
  | cons target _ ih =>
      obtain ⟨differ, apart⟩ := List.ne_and_not_mem_of_not_mem_cons apart
      obtain ⟨inside, within⟩ := List.forall_mem_cons.mp within
      obtain ⟨value, -, ran⟩ := (assignAll_cons target inside).mp ran
      rw [ih (by simpa only [List.length_set] using within) apart ran,
        List.getElem?_set_ne (Ne.symm differ)]

/-- **The loop assigns simultaneously exactly if no assignment is disturbed.** -/
theorem assignAll_eq_replaced_iff {assignments : List Assignment} {sets : List (Nat × Value)}
    (targets : List.Forall₂
      (fun assign set => Catalog.columnIndex schema assign.target.column = some set.1)
      assignments sets)
    (distinct : (sets.map Prod.fst).Nodup) (within : ∀ set ∈ sets, set.1 < row.length) :
    assignAll schema excluded assignments row = .ok (replaced row sets) ↔
      Undisturbed schema excluded row assignments sets := by
  induction targets generalizing row with
  | nil => exact ⟨fun _ k assign set here => (nomatch here), fun _ => rfl⟩
  | @cons assign set rest sets target targets ih =>
      obtain ⟨fresh, distinct⟩ := List.nodup_cons.mp distinct
      obtain ⟨inside, within⟩ := List.forall_mem_cons.mp within
      have within' : ∀ value : Value, ∀ other ∈ sets, other.1 < (row.set set.1 value).length :=
        fun value => by simpa only [List.length_set] using within
      rw [assignAll_cons target inside, undisturbed_cons, ← ih distinct (within' set.2),
        replaced_cons]
      constructor
      · rintro ⟨value, sets', ran⟩
        -- no later assignment has this column for its target
        have kept := assignAll_getElem?_of_not_mem targets (within' value) fresh ran
        rw [replaced_getElem?_of_not_mem fresh, List.getElem?_set_self inside,
          List.getElem?_set_self inside] at kept
        obtain rfl := Option.some.inj kept
        exact ⟨sets', ran⟩
      · rintro ⟨sets', ran⟩
        exact ⟨set.2, sets', ran⟩

theorem SetsDistinct.assignAll_iff {assignments : List Assignment} {sets : List (Nat × Value)}
    (assigns : SetsDistinct schema excluded row assignments sets) :
    assignAll schema excluded assignments row = .ok (replaced row sets) ↔
      Undisturbed schema excluded row assignments sets := by
  refine assignAll_eq_replaced_iff (assigns.evaluated.imp fun _ _ sets => sets.target)
    assigns.distinct fun set member => ?_
  obtain ⟨k, inSets, rfl⟩ := List.getElem_of_mem member
  obtain ⟨length, evaluated⟩ := List.forall₂_iff_get.mp assigns.evaluated
  obtain ⟨-, column, v, typed, -⟩ := evaluated k (length ▸ inSets) inSets
  obtain ⟨inside, -⟩ := List.getElem?_eq_some_iff.mp typed
  rwa [assigns.width]

/-- **Assignments that read no column assigned before them are undisturbed.** -/
theorem SetsDistinct.undisturbed_of_unread {assignments : List Assignment}
    {sets : List (Nat × Value)} (assigns : SetsDistinct schema excluded row assignments sets)
    (unread : ∀ k assign, assignments[k]? = some assign →
      ∀ i ∈ assign.value.reads schema.colNames, i ∉ (sets.take k).map Prod.fst) :
    Undisturbed schema excluded row assignments sets := by
  intro k assign set here here'
  obtain ⟨inside, rfl⟩ := List.getElem?_eq_some_iff.mp here
  obtain ⟨inside', rfl⟩ := List.getElem?_eq_some_iff.mp here'
  obtain ⟨-, sets'⟩ := List.forall₂_iff_get.mp assigns.evaluated
  obtain ⟨target, column, v, typed, evaluated, coerced⟩ := sets' k inside inside'
  refine ⟨target, column, v, typed, ?_, coerced⟩
  rw [← evaluated]
  refine evalExprWithExcluded_congr fun i reads => ?_
  rw [List.getD_eq_getElem?_getD, List.getD_eq_getElem?_getD,
    replaced_getElem?_of_not_mem (unread k _ here i reads)]

end Assignments

section Statements

variable [Runtime] {s : Executor} {table : String} {schema : TableSchema} {id : Nat} {old : Row}

/-- The statement stored the old row with each assigned column replaced. -/
def StoredSimultaneously (table : String) (id : Nat) (old : Row) (sets : List (Nat × Value))
    (s' : Executor) : Prop :=
  (s'.storage.view (table, id)).map Row.values = some (replaced old.values sets)

/-- The row a statement stored is what the loop returned. -/
theorem SetsDistinct.stored_iff {assignments : List Assignment} {sets : List (Nat × Value)}
    {excluded : Option (List Value)} {s' : Executor} {values : List Value} {version : Nat}
    (assigns : SetsDistinct schema excluded old.values assignments sets)
    (assigned : assignAll schema excluded assignments old.values = .ok values)
    (stored : s'.storage.view (table, id) = some { values, version }) :
    StoredSimultaneously table id old sets s' ↔
      Undisturbed schema excluded old.values assignments sets := by
  rw [← assigns.assignAll_iff, StoredSimultaneously, stored, assigned]
  simp only [Option.map_some, Option.some.injEq, Except.ok.injEq]

/-- A row is stored as the loop of the assignments leaves it, with the next version. -/
def Assigned (schema : TableSchema) (excluded : Option (List Value))
    (assignments : List Assignment) (old : Row) (now : Option Row) : Prop :=
  ∃ values, assignAll schema excluded assignments old.values = .ok values ∧
    now = some { values, version := old.version + 1 }

/-- What `UPDATE` stores for a row that its condition selects. -/
theorem update_stores {assignments : List Assignment} {whereClause : Option Expr}
    {result : QueryResult} {s' : Executor} (known : s.catalog[table]? = some schema)
    (stored : s.storage.view (table, id) = some old)
    (selected : selects whereClause old schema.colNames = .ok true)
    (ran : update table assignments whereClause s = .ok result s') :
    Assigned schema none assignments old (s'.storage.view (table, id)) := by
  simp only [update, bind_eq_ok, get_eq_ok, ExecM.lift_eq_ok, pure_eq_ok, getTable_eq_ok] at ran
  obtain ⟨_, _, ⟨rfl, rfl⟩, schema', _, ⟨known', rfl⟩, txnId, entered, begun, count, changed,
    updated, _, last, finished, rfl, rfl⟩ := ran
  obtain rfl : schema = schema' := Option.some.inj (known.symm.trans known')
  have enters := beginWriteTxn_ok begun
  have leaves := finishAutoCommitIfNeeded_ok finished
  have present := enters.stillStored (stillStored_scan s table)
  obtain ⟨n, -, visits⟩ := updateRows_visits (enters.frame.1 ▸ known) present updated
  have effect : ∀ {entry : Nat × Row} {mid mid' : Executor},
      Updates table schema assignments txnId entry mid mid' → ∃ now,
        Assigned schema none assignments entry.2 now ∧
        mid'.storage.view = Function.update mid.storage.view (table, entry.1) now := by
    rintro entry mid mid' ⟨values, assigned, step⟩
    exact ⟨_, ⟨values, assigned, rfl⟩, step.view⟩
  obtain ⟨touched, -⟩ := visits.touched effect present.1 present.2
  have leftView : last.storage.view = changed.storage.view := by
    cases leaves <;> rfl
  rw [leftView]
  rcases touched (id, old) (StorageEngine.mem_scan.mpr stored) with ⟨-, became⟩ | ⟨decided, -⟩
  · exact became
  · exact absurd (selected.symm.trans decided) (by simp)

/-- What `DO UPDATE` stores for the row it applies to. -/
theorem applyConflictUpdate_stores {clause : DoUpdate} {proposed : List Value} {txnId : Nat}
    {s' : Executor} {u : Unit} (known : s.catalog[table]? = some schema)
    (stored : s.storage.view (table, id) = some old)
    (applies : clause.applies schema old.values proposed = .ok true)
    (ran : applyConflictUpdate table schema id proposed clause txnId s = .ok u s') :
    Assigned schema (some proposed) clause.assignments old (s'.storage.view (table, id)) := by
  have rewritten : rewriteRow table schema clause.assignments (some proposed) txnId id old s =
      .ok u s' := by
    simp only [applyConflictUpdate, bind_eq_ok, get_eq_ok] at ran
    obtain ⟨_, _, ⟨rfl, rfl⟩, ran⟩ := ran
    rw [StorageEngine.get_eq_view, stored] at ran
    cases condition : clause.selection with
    | none =>
        simp only [condition, bind_eq_ok, pure_eq_ok] at ran
        obtain ⟨_, _, ⟨rfl, rfl⟩, ran⟩ := ran
        exact ran
    | some expr =>
        rw [DoUpdate.applies, condition] at applies
        simp only [condition, bind_eq_ok, ExecM.lift_eq_ok] at ran
        obtain ⟨chosen, _, ⟨decided, rfl⟩, ran⟩ := ran
        obtain rfl := Except.ok.inj (decided.symm.trans applies)
        exact ran
  obtain ⟨values, assigned, -, -, step⟩ := rewriteRow_ok known stored rewritten
  exact ⟨values, assigned, by rw [step.view, Function.update_self]; rfl⟩

/-- **`SET` is simultaneous exactly where no assignment is disturbed.** -/
theorem set_simultaneous_iff (known : s.catalog[table]? = some schema)
    (stored : s.storage.view (table, id) = some old) :
    (∀ assignments sets whereClause result s',
      SetsDistinct schema none old.values assignments sets →
      selects whereClause old schema.colNames = .ok true →
      update table assignments whereClause s = .ok result s' →
      (StoredSimultaneously table id old sets s' ↔
        Undisturbed schema none old.values assignments sets)) ∧
    ∀ clause proposed sets txnId s',
      SetsDistinct schema (some proposed) old.values clause.assignments sets →
      clause.applies schema old.values proposed = .ok true →
      applyConflictUpdate table schema id proposed clause txnId s = .ok () s' →
      (StoredSimultaneously table id old sets s' ↔
        Undisturbed schema (some proposed) old.values clause.assignments sets) := by
  constructor
  · intro assignments sets whereClause result s' assigns selected ran
    obtain ⟨values, assigned, became⟩ := update_stores known stored selected ran
    exact assigns.stored_iff assigned became
  · intro clause proposed sets txnId s' assigns applies ran
    obtain ⟨values, assigned, became⟩ := applyConflictUpdate_stores known stored applies ran
    exact assigns.stored_iff assigned became

end Statements

/-- `SET a = b, b = a`. -/
def swapAB : List Assignment :=
  [⟨.columnName ["a"], .identifier "b"⟩, ⟨.columnName ["b"], .identifier "a"⟩]

/-- `SET b = a, a = 5`. -/
def shiftAB : List Assignment :=
  [⟨.columnName ["b"], .identifier "a"⟩, ⟨.columnName ["a"], .value (.number "5")⟩]

/-- The table of `createPair` with the row `(1, 2)`. -/
def pairState [Runtime] : Option Executor :=
  runStatements ddlOutside .fresh
    [createPair, .insert (insertPair [] [integerLiteral 1, integerLiteral 2])]

/-- The state has the table and the row, and an `UPDATE` of it runs. -/
theorem pairState_update [Runtime] {assignments : List Assignment} {now : Row}
    (computed : pairState.map (fun s => (s.catalog["t"]?, s.storage.view ("t", 1),
      match update "t" assignments none s with
      | .ok _ s' => s'.storage.view ("t", 1)
      | .error .. => none)) =
        some (some pairSchema, some ⟨[.int4 1, .int4 2], 1⟩, some now)) :
    ∃ s result s', pairState = some s ∧ s.catalog["t"]? = some pairSchema ∧
      s.storage.view ("t", 1) = some ⟨[.int4 1, .int4 2], 1⟩ ∧
      update "t" assignments none s = .ok result s' ∧ s'.storage.view ("t", 1) = some now := by
  obtain ⟨s, ran, computed⟩ := Option.map_eq_some_iff.mp computed
  simp only [Prod.mk.injEq] at computed
  obtain ⟨known, stored, computed⟩ := computed
  split at computed
  · rename_i result s' updated
    exact ⟨s, result, s', ran, known, stored, updated, computed⟩
  · cases computed

/-- `UPDATE t SET a = b, b = a` on `(1, 2)` stores `(2, 2)`. -/
theorem swap_not_simultaneous : ∃ (s : Executor) (result : QueryResult) (s' : Executor),
    @pairState Runtime.reference = some s ∧
    s.storage.view ("t", 1) = some ⟨[.int4 1, .int4 2], 1⟩ ∧
    @SetsDistinct Runtime.reference pairSchema none [.int4 1, .int4 2] swapAB
      [(0, .int4 2), (1, .int4 1)] ∧
    @update Runtime.reference "t" swapAB none s = .ok result s' ∧
    ¬StoredSimultaneously "t" 1 ⟨[.int4 1, .int4 2], 1⟩ [(0, .int4 2), (1, .int4 1)] s' := by
  let _ := Runtime.reference
  obtain ⟨s, result, s', ran, known, stored, updated, became⟩ :=
    @pairState_update _ swapAB ⟨[.int4 2, .int4 2], 2⟩ (by decide +kernel)
  have first : Sets pairSchema none [.int4 1, .int4 2] ⟨.columnName ["a"], .identifier "b"⟩
      (0, .int4 2) :=
    ⟨by decide +kernel, _, .int4 2, rfl, by decide +kernel, by decide +kernel⟩
  have second : Sets pairSchema none [.int4 1, .int4 2] ⟨.columnName ["b"], .identifier "a"⟩
      (1, .int4 1) :=
    ⟨by decide +kernel, _, .int4 1, rfl, by decide +kernel, by decide +kernel⟩
  refine ⟨s, result, s', ran, stored, ⟨.cons first (.cons second .nil), by decide, rfl⟩, updated,
    ?_⟩
  rw [StoredSimultaneously, became]
  decide +kernel

/-- Neither statement reads a column that it assigned before. -/
theorem set_simultaneous_iff_shift : ∃ (s : Executor) (result : QueryResult) (s' : Executor),
    @update Runtime.reference "t" shiftAB none s = .ok result s' ∧
    StoredSimultaneously "t" 1 ⟨[.int4 1, .int4 2], 1⟩ [(1, .int4 1), (0, .int4 5)] s' := by
  let _ := Runtime.reference
  obtain ⟨s, result, s', -, known, stored, updated, -⟩ :=
    @pairState_update _ shiftAB ⟨[.int4 5, .int4 1], 2⟩ (by decide +kernel)
  have first : Sets pairSchema none [.int4 1, .int4 2] ⟨.columnName ["b"], .identifier "a"⟩
      (1, .int4 1) :=
    ⟨by decide +kernel, _, .int4 1, rfl, by decide +kernel, by decide +kernel⟩
  have second : Sets pairSchema none [.int4 1, .int4 2] ⟨.columnName ["a"], .value (.number "5")⟩
      (0, .int4 5) :=
    ⟨by decide +kernel, _, .int8 5, rfl, by decide +kernel, by decide +kernel⟩
  have assigns : SetsDistinct pairSchema none [.int4 1, .int4 2] shiftAB
      [(1, .int4 1), (0, .int4 5)] :=
    ⟨.cons first (.cons second .nil), by decide, rfl⟩
  have undisturbed := assigns.undisturbed_of_unread fun k assign here => by
    match k with
    | 0 => exact fun _ _ => List.not_mem_nil
    | 1 =>
        cases here
        exact fun i reads => absurd reads List.not_mem_nil
  exact ⟨s, result, s', updated, ((set_simultaneous_iff known stored).1 shiftAB _ none result s'
    assigns rfl updated).mpr undisturbed⟩

end MoodengSQL
