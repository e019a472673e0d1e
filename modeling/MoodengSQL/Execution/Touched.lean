import MoodengSQL.Reading.IndexScan

/-!
# The rows `UPDATE` and `DELETE` touch

Both statements visit the rows of an earlier scan and take a step on those that
their condition chooses. A step changes its own row and no other, so every row is
met as the scan read it, and the rows touched are those a `SELECT` shows.
-/

namespace MoodengSQL

open Foundation Foundation.Effect Relation

section Assignments

variable [Runtime]

/-- One assignment: its value, computed from the values so far and coerced to the
type of its column, replaces the column. An unknown column changes nothing. -/
def assignStep (schema : TableSchema) (excluded : Option (List Value)) (values : List Value)
    (assign : Assignment) : Except Failure (List Value) := do
  let value ← evalExprWithExcluded values schema.colNames excluded assign.value
  match schema.columns.findIdx? fun c => eqIgnoreAsciiCase c.name assign.target.column with
  | none => .ok values
  | some index => match schema.columns[index]? with
    | none => .ok values
    | some column => do
        let coerced ← value.coerceTo column.dataType
        .ok (values.set index coerced)

/-- The assignment loop runs the assignments in order, each on what the earlier
ones left. -/
theorem assignAll_eq_ok {schema : TableSchema} {excluded : Option (List Value)}
    {assignments : List Assignment} {values result : List Value}
    (ran : assignAll schema excluded assignments values = .ok result) :
    assignments.foldlM (assignStep schema excluded) values = .ok result := by
  induction assignments generalizing values with
  | nil => exact ran
  | cons assign rest ih =>
      unfold assignAll at ran
      obtain ⟨⟨column, value⟩, assigned, ran⟩ := except_bind_eq_ok.mp ran
      obtain ⟨computed, evaluated, named⟩ := except_bind_eq_ok.mp assigned
      obtain ⟨rfl, rfl⟩ := Prod.mk.inj (Except.ok.inj named)
      rw [List.foldlM_cons]
      dsimp only [Catalog.columnIndex] at ran
      cases found : schema.columns.findIdx?
          (fun c => eqIgnoreAsciiCase c.name assign.target.column) with
      | none =>
          rw [found] at ran
          refine except_bind_eq_ok.mpr ⟨values, ?_, ih ran⟩
          exact except_bind_eq_ok.mpr ⟨computed, evaluated, by rw [found]⟩
      | some index =>
          rw [found] at ran
          dsimp only at ran
          cases typed : schema.columns[index]? with
          | none =>
              rw [typed] at ran
              exact nomatch ran
          | some column =>
              rw [typed] at ran
              obtain ⟨coerced, fits, ran⟩ := except_bind_eq_ok.mp ran
              split at ran
              · refine except_bind_eq_ok.mpr ⟨values.set index coerced, ?_, ih ran⟩
                refine except_bind_eq_ok.mpr ⟨computed, evaluated, ?_⟩
                rw [found]
                dsimp only
                rw [typed]
                exact except_bind_eq_ok.mpr ⟨coerced, fits, rfl⟩
              · exact nomatch ran

end Assignments

section Visits

variable [Runtime] {s s' : Executor} {table : String} {txnId n : Nat}
  {chosen : Row → Except Failure Bool} {step : Nat × Row → Executor → Executor → Prop}
  {rows : List (Nat × Row)}

/-- The catalog, the rows of other tables and their indexes are as they were. -/
structure OthersKept (table : String) (s s' : Executor) : Prop where
  catalog : s'.catalog = s.catalog
  rows : ∀ other ≠ table, ∀ id, s'.storage.view (other, id) = s.storage.view (other, id)
  indexes : ∀ other ≠ table, ∀ name, s'.indexes.index? other name = s.indexes.index? other name

omit [Runtime] in
theorem OthersKept.refl (table : String) (s : Executor) : OthersKept table s s :=
  ⟨rfl, fun _ _ _ => rfl, fun _ _ _ => rfl⟩

omit [Runtime] in
theorem OthersKept.trans {mid : Executor} (first : OthersKept table s mid)
    (second : OthersKept table mid s') : OthersKept table s s' where
  catalog := second.catalog.trans first.catalog
  rows other elsewhere id := (second.rows other elsewhere id).trans (first.rows other elsewhere id)
  indexes other elsewhere name :=
    (second.indexes other elsewhere name).trans (first.indexes other elsewhere name)

theorem RowStep.othersKept {id : Nat} {change : RowChange}
    (step : RowStep txnId (table, id) change s s') : OthersKept table s s' := by
  refine ⟨step.catalog, fun other elsewhere otherId => ?_, fun other elsewhere name => ?_⟩
  · have differ : (other, otherId) ≠ (table, id) := fun same => elsewhere (Prod.mk.inj same).1
    rw [step.view, Function.update_of_ne differ]
  · obtain ⟨schema, -, reindexed⟩ := step.reindexed
    exact reindexed.index?_of_ne elsewhere name

omit [Runtime] in
theorem Enters.othersKept (enters : Enters s txnId s') (table : String) : OthersKept table s s' := by
  cases enters <;> exact ⟨rfl, fun _ _ _ => rfl, fun _ _ _ => rfl⟩

omit [Runtime] in
theorem Leaves.othersKept (leaves : Leaves s s') (table : String) : OthersKept table s s' := by
  cases leaves <;> exact ⟨rfl, fun _ _ _ => rfl, fun _ _ _ => rfl⟩

omit [Runtime] in
theorem Visits.othersKept (kept : ∀ {entry s s'}, step entry s s' → OthersKept table s s')
    (visits : Visits chosen step rows n s s') : OthersKept table s s' := by
  induction visits with
  | done => exact .refl table _
  | skip _ _ ih => exact ih
  | take _ taken _ ih => exact (kept taken).trans ih

omit [Runtime] in
/-- The condition is decided on every visited row. -/
theorem Visits.decided (visits : Visits chosen step rows n s s') :
    ∀ entry ∈ rows, ∃ keep, chosen entry.2 = .ok keep := by
  induction visits with
  | done => exact fun _ member => absurd member List.not_mem_nil
  | skip decided _ ih => exact List.forall_mem_cons.mpr ⟨⟨false, decided⟩, ih⟩
  | take decided _ _ ih => exact List.forall_mem_cons.mpr ⟨⟨true, decided⟩, ih⟩

omit [Runtime] in
/-- The loop counts the chosen rows. -/
theorem Visits.count (visits : Visits chosen step rows n s s') (keep : Row → Bool)
    (kept : ∀ entry ∈ rows, chosen entry.2 = .ok (keep entry.2)) :
    n = (rows.filter (keep ·.2)).length := by
  induction visits with
  | done => rfl
  | skip decided _ ih =>
      obtain ⟨first, later⟩ := List.forall_mem_cons.mp kept
      have no := Except.ok.inj (first.symm.trans decided)
      rw [List.filter_cons_of_neg (by rw [no]; decide)]
      exact ih later
  | take decided _ _ ih =>
      obtain ⟨first, later⟩ := List.forall_mem_cons.mp kept
      have yes := Except.ok.inj (first.symm.trans decided)
      rw [List.filter_cons_of_pos (by rw [yes]), List.length_cons, ih later]

omit [Runtime] in
/-- **Each row is touched once, or not at all.** A step puts what `after` says in
place of its row and leaves the other rows alone. -/
theorem Visits.touched {after : Row → Option Row → Prop}
    (effect : ∀ {entry s s'}, step entry s s' → ∃ now, after entry.2 now ∧
      s'.storage.view = Function.update s.storage.view (table, entry.1) now)
    (visits : Visits chosen step rows n s s') (distinct : (rows.map Prod.fst).Nodup)
    (stored : ∀ entry ∈ rows, s.storage.view (table, entry.1) = some entry.2) :
    (∀ entry ∈ rows,
      (chosen entry.2 = .ok true ∧ after entry.2 (s'.storage.view (table, entry.1))) ∨
      (chosen entry.2 = .ok false ∧ s'.storage.view (table, entry.1) = some entry.2)) ∧
    ∀ key, (∀ entry ∈ rows, key ≠ (table, entry.1)) → s'.storage.view key = s.storage.view key := by
  induction visits with
  | done => exact ⟨fun _ member => absurd member List.not_mem_nil, fun _ _ => rfl⟩
  | @skip entry rest _ s s' decided _ ih =>
      obtain ⟨fresh, distinct⟩ := List.nodup_cons.mp distinct
      obtain ⟨present, stored⟩ := List.forall_mem_cons.mp stored
      obtain ⟨touched, others⟩ := ih distinct stored
      have untouched : s'.storage.view (table, entry.1) = s.storage.view (table, entry.1) :=
        others _ fun other member same =>
          fresh (List.mem_map.mpr ⟨other, member, (Prod.mk.inj same).2.symm⟩)
      refine ⟨List.forall_mem_cons.mpr ⟨.inr ⟨decided, untouched.trans present⟩, touched⟩, ?_⟩
      exact fun key elsewhere => others key (List.forall_mem_cons.mp elsewhere).2
  | @take entry rest _ s mid s' decided taken _ ih =>
      obtain ⟨now, changed, view⟩ := effect taken
      obtain ⟨fresh, distinct⟩ := List.nodup_cons.mp distinct
      obtain ⟨present, stored⟩ := List.forall_mem_cons.mp stored
      have apart : ∀ other ∈ rest, (table, entry.1) ≠ (table, other.1) :=
        fun other member same =>
          fresh (List.mem_map.mpr ⟨other, member, (Prod.mk.inj same).2.symm⟩)
      obtain ⟨touched, others⟩ := ih distinct fun other member => by
        rw [view, Function.update_of_ne (apart other member).symm]
        exact stored other member
      have here : s'.storage.view (table, entry.1) = now := by
        rw [others _ apart, view, Function.update_self]
      refine ⟨List.forall_mem_cons.mpr ⟨.inl ⟨decided, here ▸ changed⟩, touched⟩, ?_⟩
      intro key elsewhere
      obtain ⟨differ, elsewhere⟩ := List.forall_mem_cons.mp elsewhere
      rw [others key elsewhere, view, Function.update_of_ne differ]

end Visits

section Statements

variable [Runtime] {s s' : Executor} {table : String} {schema : TableSchema} {condition : Expr}

/-- `SELECT * FROM table WHERE condition`. -/
def selectStar (table : String) (condition : Expr) : Query :=
  ⟨.select ⟨[.wildcard], [⟨.table [table], []⟩], some condition, .expressions []⟩,
    none, none, none⟩

/-- **The statement touched what `SELECT *` shows.** It counts the rows that the
query with its condition returned just before; these are the rows it changed, each
to what `after` says; and the other rows, other tables and their indexes are as
they were. -/
structure TouchesSelected (table : String) (schema : TableSchema) (condition : Expr)
    (after : Row → Option Row → Prop) (count : Nat) (s s' : Executor) : Prop where
  shown : ∃ shown, select s.toDatabase (selectStar table condition) = .ok shown ∧
    count = shown.rows.length ∧
    shown.rows.Perm (((s.storage.scan table).filter fun entry =>
      satisfied schema.colNames entry.2.values condition).map fun entry =>
        Row.new entry.2.values)
  touched : ∀ id row, s.storage.view (table, id) = some row →
    (evalWhere condition row.values schema.colNames = .ok true ∧
      after row (s'.storage.view (table, id))) ∨
    (evalWhere condition row.values schema.colNames = .ok false ∧
      s'.storage.view (table, id) = some row)
  absent : ∀ id, s.storage.view (table, id) = none → s'.storage.view (table, id) = none
  others : OthersKept table s s'

/-- A wildcard query without clauses returns the rows it kept. -/
theorem select_star_eq {rows : List Row} (known : s.catalog[table]? = some schema)
    (kept : keptRows s.toDatabase table (some condition) schema.colNames
      (planScan table (some condition) s.indexes schema.colNames) = .ok rows) :
    select s.toDatabase (selectStar table condition) =
      .ok (QueryResult.select schema.colNames (rows.map fun row => Row.new row.values)) := by
  have projected : projectRows [.wildcard] rows schema.colNames =
      .ok (rows.map fun row => Row.new row.values) := by
    rw [projectRows, except_mapM_eq_ok, List.forall₂_map_right_iff, List.forall₂_same]
    exact fun row _ => rfl
  rw [select_eq rfl rfl rfl]
  refine except_bind_eq_ok.mpr ⟨schema, getTable_eq_ok.mpr known, ?_⟩
  refine except_bind_eq_ok.mpr ⟨rows, kept, ?_⟩
  refine except_bind_eq_ok.mpr ⟨(schema.colNames, rows), rfl, ?_⟩
  refine except_bind_eq_ok.mpr ⟨rows, rfl, ?_⟩
  refine except_bind_eq_ok.mpr ⟨rows, rfl, ?_⟩
  exact except_bind_eq_ok.mpr ⟨_, projected, rfl⟩

/-- What a loop over the scanned rows touches. -/
theorem Visits.touchesSelected {step : Nat × Row → Executor → Executor → Prop} {txnId n : Nat}
    {entered changed : Executor} {after : Row → Option Row → Prop}
    (known : s.catalog[table]? = some schema) (stored : table ∈ s.storage.tables)
    (exact : ∀ name index, s.indexes.index? table name = some index →
      IndexExact index schema.colNames (s.storage.contents.table table))
    (plain : ∀ name ∈ schema.colNames, '.' ∉ name.toList)
    (noFloats : ∀ entry ∈ s.storage.scan table, ∀ value ∈ entry.2.values, value.isFloat = false)
    (rowStep : ∀ {entry s s'}, step entry s s' → ∃ change now,
      RowStep txnId (table, entry.1) change s s' ∧ change.after = now ∧ after entry.2 now)
    (enters : Enters s txnId entered)
    (visits : Visits (selects (some condition) · schema.colNames) step (s.storage.scan table) n
      entered changed)
    (leaves : Leaves changed s') : TouchesSelected table schema condition after n s s' := by
  have decided : ∀ entry ∈ s.storage.scan table,
      evalWhere condition entry.2.values schema.colNames =
        .ok (satisfied schema.colNames entry.2.values condition) := by
    intro entry member
    obtain ⟨keep, evaluated⟩ := visits.decided entry member
    exact evaluated.trans (congrArg Except.ok (satisfied_of_ok evaluated).symm)
  have counted : n = ((s.storage.scan table).filter fun entry =>
      satisfied schema.colNames entry.2.values condition).length :=
    visits.count (fun row => satisfied schema.colNames row.values condition) decided
  have scanned : keptRows s.toDatabase table (some condition) schema.colNames .fullScan =
      .ok (((s.storage.scan table).filter fun entry =>
        satisfied schema.colNames entry.2.values condition).map Prod.snd) := by
    have rowsDecided : ∀ row ∈ (s.storage.scan table).map Prod.snd,
        evalWhere condition row.values schema.colNames =
          .ok (satisfied schema.colNames row.values condition) := by
      intro row member
      obtain ⟨entry, listed, rfl⟩ := List.mem_map.mp member
      exact decided entry listed
    refine (filterRows_eq rowsDecided).trans ?_
    rw [List.filter_map]
    rfl
  have kept : ∃ rows, keptRows s.toDatabase table (some condition) schema.colNames
      (planScan table (some condition) s.indexes schema.colNames) = .ok rows ∧
      rows.Perm (((s.storage.scan table).filter fun entry =>
        satisfied schema.colNames entry.2.values condition).map Prod.snd) := by
    cases planned : planScan table (some condition) s.indexes schema.colNames with
    | fullScan => exact ⟨_, scanned, .refl _⟩
    | indexLookup indexName keys =>
        obtain ⟨rows, rows', looked, scanned', perm⟩ :=
          keptRows_indexLookup stored exact plain noFloats planned
        obtain rfl := Except.ok.inj (scanned'.symm.trans scanned)
        exact ⟨rows, looked, perm⟩
  obtain ⟨rows, kept, perm⟩ := kept
  have entered' := enters.stillStored (stillStored_scan s table)
  have enteredView : entered.storage.view = s.storage.view := by
    rw [StorageEngine.view, StorageEngine.view, enters.frame.2.1]
  have leftView : s'.storage.view = changed.storage.view := by
    cases leaves <;> rfl
  obtain ⟨touched, untouched⟩ := visits.touched (fun taken => by
    obtain ⟨change, now, step, rfl, becomes⟩ := rowStep taken
    exact ⟨_, becomes, step.view⟩) entered'.1 entered'.2
  refine ⟨⟨_, select_star_eq known kept, ?_, ?_⟩, fun id row here => ?_, fun id none => ?_, ?_⟩
  · rw [counted]
    have length := perm.length_eq
    rw [List.length_map] at length
    exact length.symm.trans (List.length_map _).symm
  · have shown := perm.map fun row => Row.new row.values
    rwa [List.map_map] at shown
  · rw [leftView]
    exact touched (id, row) (StorageEngine.mem_scan.mpr here)
  · rw [leftView, untouched, enteredView, none]
    rintro entry member same
    obtain rfl := (Prod.mk.inj same).2
    rw [StorageEngine.mem_scan.mp member] at none
    cases none
  · refine (enters.othersKept table).trans (.trans ?_ (leaves.othersKept table))
    exact visits.othersKept fun taken => by
      obtain ⟨change, now, step, -, -⟩ := rowStep taken
      exact step.othersKept

/-- **`DELETE` and `UPDATE` touch exactly the rows `SELECT` shows.** -/
theorem delete_and_update_touch_selected (known : s.catalog[table]? = some schema)
    (stored : table ∈ s.storage.tables)
    (exact : ∀ name index, s.indexes.index? table name = some index →
      IndexExact index schema.colNames (s.storage.contents.table table))
    (plain : ∀ name ∈ schema.colNames, '.' ∉ name.toList)
    (noFloats : ∀ entry ∈ s.storage.scan table, ∀ value ∈ entry.2.values, value.isFloat = false)
    (condition : Expr) :
    (∀ result s', delete table (some condition) s = .ok result s' →
      TouchesSelected table schema condition (fun _ now => now = none) result.rowsAffected s s') ∧
    ∀ assignments result s', update table assignments (some condition) s = .ok result s' →
      TouchesSelected table schema condition
        (fun row now => ∃ values,
          assignments.foldlM (assignStep schema none) row.values = .ok values ∧
          now = some { values, version := row.version + 1 })
        result.rowsAffected s s' := by
  constructor
  · intro result s' ran
    simp only [delete, bind_eq_ok, get_eq_ok, ExecM.lift_eq_ok, pure_eq_ok, getTable_eq_ok] at ran
    obtain ⟨_, _, ⟨rfl, rfl⟩, schema', _, ⟨known', rfl⟩, txnId, entered, begun, count, changed,
      deleted, _, _, finished, rfl, rfl⟩ := ran
    obtain rfl : schema = schema' := Option.some.inj (known.symm.trans known')
    have enters := beginWriteTxn_ok begun
    obtain ⟨n, counted, visits⟩ := deleteRows_visits (enters.frame.1 ▸ known)
      (enters.stillStored (stillStored_scan s table)) deleted
    obtain rfl : count = n := counted.trans (Nat.zero_add n)
    exact visits.touchesSelected known stored exact plain noFloats
      (fun step => ⟨_, _, step, rfl, rfl⟩) enters (finishAutoCommitIfNeeded_ok finished)
  · intro assignments result s' ran
    simp only [update, bind_eq_ok, get_eq_ok, ExecM.lift_eq_ok, pure_eq_ok, getTable_eq_ok] at ran
    obtain ⟨_, _, ⟨rfl, rfl⟩, schema', _, ⟨known', rfl⟩, txnId, entered, begun, count, changed,
      updated, _, _, finished, rfl, rfl⟩ := ran
    obtain rfl : schema = schema' := Option.some.inj (known.symm.trans known')
    have enters := beginWriteTxn_ok begun
    obtain ⟨n, counted, visits⟩ := updateRows_visits (enters.frame.1 ▸ known)
      (enters.stillStored (stillStored_scan s table)) updated
    obtain rfl : count = n := counted.trans (Nat.zero_add n)
    refine visits.touchesSelected known stored exact plain noFloats ?_
      enters (finishAutoCommitIfNeeded_ok finished)
    rintro entry mid mid' ⟨values, assigned, step⟩
    exact ⟨_, _, step, rfl, values, assignAll_eq_ok assigned, rfl⟩

end Statements

/-- A row that an index lookup finds, removed, and one updated. -/
theorem delete_and_update_touch_selected_key : ∃ (s : Executor) (schema : TableSchema),
    @runStatements Runtime.reference ddlOutside .fresh [createT, insertT [1, 2]] = some s ∧
    s.catalog["t"]? = some schema ∧
    (∃ result s', @delete Runtime.reference "t" (some twoIsId) s = .ok result s' ∧
      @TouchesSelected Runtime.reference "t" schema twoIsId (fun _ now => now = none)
        result.rowsAffected s s') ∧
    ∃ result s', @update Runtime.reference "t" (setT 5) (some twoIsId) s = .ok result s' ∧
      @TouchesSelected Runtime.reference "t" schema twoIsId
        (fun row now => ∃ values,
          (setT 5).foldlM (@assignStep Runtime.reference schema none) row.values = .ok values ∧
          now = some { values, version := row.version + 1 })
        result.rowsAffected s s' := by
  let _ := Runtime.reference
  obtain ⟨s, ran⟩ : ∃ s, runStatements ddlOutside .fresh [createT, insertT [1, 2]] = some s :=
    Option.isSome_iff_exists.mp (by decide +kernel)
  have consistent := (Run.of_runStatements ran).consistent.1
  have computed : (runStatements ddlOutside .fresh [createT, insertT [1, 2]]).map (fun s =>
      (s.catalog["t"]?.map TableSchema.colNames, s.storage.scan "t",
        (delete "t" (some twoIsId) s matches .ok _ _ : Bool),
        (update "t" (setT 5) (some twoIsId) s matches .ok _ _ : Bool))) =
      some (some ["id"], [(1, ⟨[.int4 1], 1⟩), (2, ⟨[.int4 2], 1⟩)], true, true) := by
    decide +kernel
  rw [ran] at computed
  simp only [Option.map_some, Option.some.injEq, Prod.mk.injEq] at computed
  obtain ⟨columns, scanned, deletes, updates⟩ := computed
  obtain ⟨schema, known, names⟩ := Option.map_eq_some_iff.mp columns
  have stored : "t" ∈ s.storage.tables := by
    have listed : (1, Row.mk [.int4 1] 1) ∈ s.storage.scan "t" := by
      rw [scanned]
      exact List.mem_cons_self
    exact StorageEngine.mem_tables_of_view (StorageEngine.mem_scan.mp listed)
  have noFloats : ∀ entry ∈ s.storage.scan "t", ∀ value ∈ entry.2.values,
      value.isFloat = false := by
    rw [scanned]
    decide
  obtain ⟨deleted, updated⟩ := delete_and_update_touch_selected known stored
    (fun name index present => consistent.agree known present) (by rw [names]; decide) noFloats
    twoIsId
  refine ⟨s, schema, ran, known, ?_, ?_⟩
  · cases ended : delete "t" (some twoIsId) s with
    | error e s' => rw [ended] at deletes; exact nomatch deletes
    | ok result s' => exact ⟨result, s', rfl, deleted result s' ended⟩
  · cases ended : update "t" (setT 5) (some twoIsId) s with
    | error e s' => rw [ended] at updates; exact nomatch updates
    | ok result s' => exact ⟨result, s', rfl, updated (setT 5) result s' ended⟩

end MoodengSQL
