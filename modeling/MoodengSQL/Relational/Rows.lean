import MoodengSQL.Foundation.Agreement
import MoodengSQL.Foundation.Listed
import MoodengSQL.Execution.Upserts
import MoodengSQL.Relational.Tables

/-!
# Rows and indexes as relations

The row loops of the statements against the loops over lists of rows. A table lists its
rows by id; with the indexes exact, an index accepts a row exactly if no other row of
the list has its key, and the row an index finds is the first one of the list that has
the key.
-/

namespace MoodengSQL

open Foundation Foundation.Effect Std

/-- The rows of the list are those of the table that are stored under other ids. -/
def AreOthers (contents : Contents) (table : String) (id : Nat) (others : List (List Value)) :
    Prop :=
  ∀ values, values ∈ others ↔ ∃ other, other ≠ id ∧ contents (table, other) = some values

/-- While a statement works on a table: the entries the table lists, in a consistent
state whose other tables are those of the start. -/
structure AtTable (start : Executor) (table : String) (schema : TableSchema)
    (entries : List (Nat × List Value)) (s : Executor) : Prop where
  consistent : Consistent s
  known : s.catalog[table]? = some schema
  lists : Lists entries (s.storage.contents.table table)
  others : OthersKept table start s

/-- The rows of a list of entries, which the table of the state lists. -/
def AtRows (start : Executor) (table : String) (schema : TableSchema) (s : Executor)
    (rows : List (List Value)) : Prop :=
  ∃ entries, AtTable start table schema entries s ∧ rows = entries.map Prod.snd

section Keys

variable {s : Executor} {table : String} {schema : TableSchema} {id : Nat}
  {others : List (List Value)}

theorem sameKey_iff {columns colNames : List String} {left right : List Value} :
    sameKey columns colNames left right = true ↔
      IndexKey.ofValues (keyValues columns left colNames) =
        IndexKey.ofValues (keyValues columns right colNames) := by
  unfold sameKey
  exact decide_eq_true_iff

theorem admits_iff {values : List Value} : schema.admits others values = true ↔
    ∀ definition ∈ schema.indexes, definition.unique = true → ∀ row ∈ others,
      sameKey definition.columns schema.colNames row values = false := by
  simp only [TableSchema.admits, List.all_eq_true, Bool.or_eq_true, Bool.not_eq_true']
  constructor
  · intro all definition member unique row inside
    rcases all definition member with plain | keys
    · rw [unique] at plain
      cases plain
    · exact keys row inside
  · intro all definition member
    cases unique : definition.unique with
    | false => exact .inl rfl
    | true => exact .inr (all definition member unique)

/-- The definition of an index of the manager is one of the catalog's. -/
theorem Consistent.definition_of_index (consistent : Consistent s)
    (known : s.catalog[table]? = some schema) {name : String} {index : BTreeIndex}
    (present : s.indexes.index? table name = some index) : index.definition ∈ schema.indexes := by
  have matched := consistent.definitions table name
  rw [known, Option.bind_some, present, Option.map_some] at matched
  exact List.mem_of_find?_eq_some matched.symm

/-- **The indexes accept a row exactly if no other row has its key.** -/
theorem admits_iff_distinguishes (values : List Value) (consistent : Consistent s)
    (known : s.catalog[table]? = some schema)
    (areOthers : AreOthers s.storage.contents table id others) :
    schema.admits others values = true ↔ Distinguishes s.catalog s.indexes
      (Function.update s.storage.contents (table, id) (some values)) := by
  rw [admits_iff]
  have distinguishes := consistent.agree.distinguishes
  have elsewhere : ∀ {table' : String} {other : Nat}, (table', other) ≠ (table, id) →
      Function.update s.storage.contents (table, id) (some values) (table', other) =
        s.storage.contents (table', other) := fun differ => Function.update_of_ne differ _ _
  have here : Function.update s.storage.contents (table, id) (some values) (table, id) =
      some values := Function.update_self ..
  constructor
  · intro admitted table' schema' name index known' present unique left right leftValues rightValues
      leftRow rightRow same
    -- a row of the same table under another id has another key
    have apart : ∀ {other : Nat} {row : List Value}, table' = table → other ≠ id →
        s.storage.contents (table', other) = some row →
        index.keyOf schema'.colNames row ≠ index.keyOf schema'.colNames values := by
      rintro other row rfl differ stored key
      obtain rfl : schema' = schema := Option.some.inj (known'.symm.trans known)
      have refused := admitted index.definition (consistent.definition_of_index known present)
        unique row ((areOthers row).mpr ⟨other, differ, stored⟩)
      exact absurd (sameKey_iff.mpr key) (Bool.eq_false_iff.mp refused)
    by_cases atLeft : (table', left) = (table, id)
    · by_cases atRight : (table', right) = (table, id)
      · rw [Prod.mk.injEq] at atLeft atRight
        exact atLeft.2.trans atRight.2.symm
      · rw [elsewhere atRight] at rightRow
        rw [atLeft, here] at leftRow
        cases leftRow
        rw [Prod.mk.injEq] at atLeft atRight
        exact absurd same.symm (apart atLeft.1 (fun sameId => atRight ⟨atLeft.1, sameId⟩) rightRow)
    · rw [elsewhere atLeft] at leftRow
      by_cases atRight : (table', right) = (table, id)
      · rw [atRight, here] at rightRow
        cases rightRow
        rw [Prod.mk.injEq] at atLeft atRight
        exact absurd same (apart atRight.1 (fun sameId => atLeft ⟨atRight.1, sameId⟩) leftRow)
      · rw [elsewhere atRight] at rightRow
        exact distinguishes known' present unique leftRow rightRow same
  · intro distinct definition member unique row inside
    obtain ⟨other, differ, stored⟩ := (areOthers row).mp inside
    obtain ⟨index, present, rfl⟩ := consistent.index_of_definition known member
    by_contra same
    rw [Bool.not_eq_false, sameKey_iff] at same
    refine differ (distinct known present unique ?_ here same)
    rw [elsewhere fun equal => differ (Prod.mk.inj equal).2]
    exact stored

end Keys

section Steps

variable [Runtime] {start s s' : Executor} {table : String} {schema : TableSchema}
  {entries before after : List (Nat × List Value)} {txnId id : Nat} {old row : Row}
  {values : List Value}

omit [Runtime] in
theorem AtTable.areOthers (at_ : AtTable start table schema (before ++ (id, values) :: after) s) :
    AreOthers s.storage.contents table id (before.map Prod.snd ++ after.map Prod.snd) := by
  intro row
  rw [← List.map_append, List.mem_map]
  constructor
  · rintro ⟨⟨other, _⟩, member, rfl⟩
    refine ⟨other, at_.lists.apart _ member, (at_.lists.mem_iff _ _).mp ?_⟩
    rcases List.mem_append.mp member with member | member
    · exact List.mem_append_left _ member
    · exact List.mem_append_right _ (List.mem_cons_of_mem _ member)
  · rintro ⟨other, differ, stored⟩
    have member := (at_.lists.mem_iff other row).mpr stored
    refine ⟨(other, row), ?_, rfl⟩
    simp only [List.mem_append, List.mem_cons, Prod.mk.injEq] at member ⊢
    rcases member with member | ⟨same, -⟩ | member
    · exact .inl member
    · exact absurd same differ
    · exact .inr member

omit [Runtime] in
/-- Every stored row is another one than a row still to be stored. -/
theorem AtTable.areOthers_of_absent (at_ : AtTable start table schema entries s)
    (absent : s.storage.contents (table, id) = none) :
    AreOthers s.storage.contents table id (entries.map Prod.snd) := by
  intro row
  rw [List.mem_map]
  constructor
  · rintro ⟨⟨other, _⟩, member, rfl⟩
    have stored := (at_.lists.mem_iff _ _).mp member
    refine ⟨other, ?_, stored⟩
    rintro rfl
    rw [Contents.table, absent] at stored
    cases stored
  · rintro ⟨other, -, stored⟩
    exact ⟨(other, row), (at_.lists.mem_iff other row).mpr stored, rfl⟩

theorem AtTable.rowStep {change : RowChange} (at_ : AtTable start table schema entries s)
    (step : RowStep txnId (table, id) change s s')
    {entries' : List (Nat × List Value)} (lists : Lists entries'
      (Function.update (s.storage.contents.table table) id (change.after.map Row.values))) :
    AtTable start table schema entries' s' where
  consistent := at_.consistent.rowStep step
  known := step.catalog ▸ at_.known
  lists := by
    rw [step.contents, Contents.table_update_self]
    exact lists
  others := at_.others.trans step.othersKept

theorem storeRow_accepts {rowId : Nat} {tables : Map String TableData}
    (inserted : s.storage.insert table (Row.new values) txnId =
      (rowId, .log { s.storage with tables } (.insert txnId table rowId (Row.new values))))
    {manager : IndexManager}
    (indexed : s.indexes.insertRow table values schema.colNames rowId = (.ok (), manager)) :
    ∃ s', storeRow table schema txnId values s = .ok () s' := by
  simp only [storeRow, recordUndo, ExecM.insertIndexRow, bind_eq_ok, ExecM.liftStorage_eq_ok,
    ExecM.liftIndexes_eq_ok, modify_eq_ok, inserted]
  exact ⟨_, _, _, ⟨_, rfl, rfl⟩, (), _, ⟨manager, indexed, rfl⟩, rfl⟩

/-- **Storing a row** appends it, and is refused exactly if another row has its key. -/
theorem storeRow_endsAs (at_ : AtTable start table schema entries s) :
    EndsAs (storeRow table schema txnId values s) (addRow schema (entries.map Prod.snd) values)
      fun _ s' => AtRows start table schema s' := by
  obtain ⟨rowId, tables, inserted, absent, -⟩ :=
    s.storage.insert_spec table (Row.new values) txnId
  have vacant : s.storage.contents (table, rowId) = none := by
    rw [StorageEngine.contents, absent]
    rfl
  have exactly := admits_iff_distinguishes values at_.consistent at_.known
    (at_.areOthers_of_absent vacant)
  cases ran : storeRow table schema txnId values s with
  | ok u s' =>
      obtain ⟨-, step⟩ := storeRow_ok at_.known ran
      have fresh : (s.storage.insert table (Row.new values) txnId).1 = rowId := by
        rw [inserted]
      have nextId : rowId = (s.storage.rowTable table).nextId := by
        rw [← fresh]
        rfl
      rw [fresh] at step
      have admitted := exactly.mpr (by
        have distinct := (at_.consistent.rowStep step).agree.distinguishes
        rw [step.contents, step.catalog] at distinct
        exact distinct.of_sameDefinitions step.sameDefinitions.symm)
      have beyond : ∀ entry ∈ entries, entry.1 < rowId := by
        intro entry member
        have stored := (at_.lists.mem_iff entry.1 entry.2).mp member
        obtain ⟨row, here, -⟩ := Option.map_eq_some_iff.mp stored
        rw [← rowTable_getElem?] at here
        rw [nextId]
        exact (s.storage.tables.getD table .empty).fresh _ (Map.mem_of_getElem?_eq_some here)
      refine .of_ok rfl (if_pos admitted) ⟨_, at_.rowStep step (at_.lists.append beyond), ?_⟩
      rw [List.map_append]
      rfl
  | error e s' =>
      refine .of_error rfl (if_neg fun admitted => ?_)
      obtain ⟨manager, indexed⟩ := at_.consistent.agree.exists_reindexed at_.known vacant
        (exactly.mp admitted)
      obtain ⟨s'', accepted⟩ := storeRow_accepts inserted indexed
      rw [ran] at accepted
      cases accepted

theorem rewriteRow_accepts {assignments : List Assignment} {excluded : Option (List Value)}
    (accepted : rewrittenValues schema assignments excluded old = .ok values)
    (current : s.storage.view (table, id) = some old) {manager : IndexManager}
    (indexed : (s.indexes.removeRow table old.values schema.colNames id).insertRow table values
      schema.colNames id = (.ok (), manager)) :
    ∃ s', rewriteRow table schema assignments excluded txnId id old s = .ok () s' := by
  have updates : ∃ storage, s.storage.update table id { old with values } txnId old.version =
      .ok (true, storage) := update_accepts current
  obtain ⟨storage, updated⟩ := updates
  simp only [rewrittenValues, except_bind_eq_ok, pure, Except.pure, Except.ok.injEq] at accepted
  obtain ⟨_, assigned, _, valid, rfl⟩ := accepted
  simp only [rewriteRow, recordUndo, ExecM.insertIndexRow, ExecM.removeIndexRow, bind_eq_ok,
    ExecM.lift_eq_ok, ExecM.liftStorage_eq_ok, ExecM.liftIndexes_eq_ok, modify_eq_ok]
  exact ⟨_, (), _, rfl, (), _, rfl, _, _, ⟨assigned, rfl⟩, (), _, ⟨valid, rfl⟩, true, _,
    ⟨storage, updated, rfl⟩, manager, indexed, rfl⟩

/-- **Rewriting a row** replaces it, and is refused exactly if its new values are or if
another row has its new key. -/
theorem rewriteRow_endsAs {assignments : List Assignment} {excluded : Option (List Value)}
    (at_ : AtTable start table schema (before ++ (id, old.values) :: after) s)
    (current : s.storage.view (table, id) = some old) :
    EndsAs (rewriteRow table schema assignments excluded txnId id old s)
      (reviseRow schema assignments excluded (before.map Prod.snd ++ after.map Prod.snd) old.values)
      fun _ s' values => AtTable start table schema (before ++ (id, values) :: after) s' := by
  have exactly := fun values : List Value => admits_iff_distinguishes values at_.consistent
    at_.known at_.areOthers
  have here : s.storage.contents (table, id) = some old.values := by
    rw [StorageEngine.contents, current]
    rfl
  cases ran : rewriteRow table schema assignments excluded txnId id old s with
  | ok u s' =>
      obtain ⟨values, assigned, valid, -, step⟩ := rewriteRow_ok at_.known current ran
      have rewritten : rewrittenValues schema assignments excluded (Row.new old.values) =
          .ok values := by
        unfold rewrittenValues
        rw [show (Row.new old.values).values = old.values from rfl, assigned]
        simp only [bind, Except.bind, valid, pure, Except.pure]
      have admitted := (exactly values).mpr (by
        have distinct := (at_.consistent.rowStep step).agree.distinguishes
        rw [step.contents, step.catalog] at distinct
        exact distinct.of_sameDefinitions step.sameDefinitions.symm)
      refine .of_ok rfl ?_ (at_.rowStep step at_.lists.replace)
      rw [reviseRow, rewritten]
      exact if_pos admitted
  | error e s' =>
      refine .of_error rfl ?_
      unfold reviseRow
      cases rewritten : rewrittenValues schema assignments excluded (Row.new old.values) with
      | error e => rfl
      | ok values =>
          refine if_neg fun admitted => ?_
          obtain ⟨manager, indexed⟩ := at_.consistent.agree.exists_reindexed at_.known here
            ((exactly values).mp admitted)
          have accepts : ∃ s'', rewriteRow table schema assignments excluded txnId id old s =
              .ok () s'' := rewriteRow_accepts rewritten current indexed
          obtain ⟨s'', accepted⟩ := accepts
          rw [ran] at accepted
          cases accepted

/-- **Removing a row** is never refused. -/
theorem removeRow_removes (txnId : Nat)
    (at_ : AtTable start table schema (before ++ (id, old.values) :: after) s)
    (current : s.storage.view (table, id) = some old) :
    ∃ s', removeRow table schema txnId id old s = .ok () s' ∧
      AtTable start table schema (before ++ after) s' ∧
      RowStep txnId (table, id) (.delete old) s s' := by
  have removes : ∃ s', removeRow table schema txnId id old s = .ok () s' ∧ Grew s' s :=
    removeRow_shrunk current
  obtain ⟨s', ran, -⟩ := removes
  have step := removeRow_ok at_.known current ran
  exact ⟨s', ran, at_.rowStep step at_.lists.remove, step⟩

end Steps

section Loops

variable [Runtime] {start s s' : Executor} {table : String} {schema : TableSchema}
  {txnId count : Nat}

omit [Runtime] in
/-- A result that both sides compute alike. -/
theorem endsAs_lift {α : Type} (result : Except Failure α) :
    EndsAs (ExecM.lift result s) result.toOption fun a s' b => a = b ∧ s' = s := by
  cases result with
  | ok a => exact .ret ⟨rfl, rfl⟩
  | error e => exact .fail e

omit [Runtime] in
/-- Both sides refuse. -/
theorem endsAs_refused {α β γ : Type} {result : Except Failure α} {f : α → ExecM β}
    {related : β → Executor → γ → Prop} (refused : ∃ e, result = .error e) :
    EndsAs ((ExecM.lift result >>= f) s) none related := by
  obtain ⟨e, refused⟩ := refused
  have ran : (ExecM.lift result >>= f) s = .error e s :=
    bind_eq_error.mpr (.inl (ExecM.lift_eq_error.mpr ⟨refused, rfl⟩))
  exact .of_error ran rfl

/-- What a row loop gives: the count, and the rows of the table. -/
def Stored (start : Executor) (table : String) (schema : TableSchema) (count : Nat) (s : Executor)
    (stored : Nat × List (List Value)) : Prop :=
  count = stored.1 ∧ AtRows start table schema s stored.2

/-- The entries of rows as a scan reads them. -/
def scanEntries (rows : List (Nat × Row)) : List (Nat × List Value) :=
  rows.map fun entry => (entry.1, entry.2.values)

/-- **The row loop of `UPDATE`.** -/
theorem updateRows_endsAs {assignments : List Assignment} {whereClause : Option Expr}
    {passed : List (Nat × List Value)} {rest : List (Nat × Row)}
    (at_ : AtTable start table schema (passed ++ scanEntries rest) s)
    (still : StillStored s table rest) :
    EndsAs (updateRows table schema assignments whereClause txnId rest count s)
      (updateAll schema assignments whereClause (passed.map Prod.snd)
        ((scanEntries rest).map Prod.snd) count)
      (Stored start table schema) := by
  induction rest generalizing s passed count with
  | nil => exact .ret ⟨rfl, passed, by simpa [scanEntries] using at_, rfl⟩
  | cons entry rest ih =>
      obtain ⟨id, row⟩ := entry
      have current := still.2 (id, row) List.mem_cons_self
      refine EndsAs.seq (endsAs_lift (selects whereClause row schema.colNames)) ?_
      rintro selected s' _ - - ⟨rfl, rfl⟩
      cases selected with
      | false =>
          have at_' : AtTable start table schema ((passed ++ [(id, row.values)]) ++ scanEntries rest)
              s' := by
            rw [List.append_assoc]
            exact at_
          have ends := @ih _ count _ at_' still.skip
          rw [List.map_append] at ends
          exact ends
      | true =>
          refine EndsAs.seq (rewriteRow_endsAs at_ current) ?_
          intro u mid values ran _ replaced
          obtain ⟨_, -, -, -, step⟩ := rewriteRow_ok at_.known current ran
          have at_' : AtTable start table schema ((passed ++ [(id, values)]) ++ scanEntries rest)
              mid := by
            rw [List.append_assoc]
            exact replaced
          have ends := @ih _ (count + 1) _ at_' (still.tail step)
          rw [List.map_append] at ends
          exact ends

/-- **The row loop of `DELETE`.** -/
theorem deleteRows_endsAs {whereClause : Option Expr} {passed : List (Nat × List Value)}
    {rest : List (Nat × Row)} (at_ : AtTable start table schema (passed ++ scanEntries rest) s)
    (still : StillStored s table rest) :
    EndsAs (deleteRows table schema whereClause txnId rest count s)
      (deleteAll schema whereClause (passed.map Prod.snd) ((scanEntries rest).map Prod.snd) count)
      (Stored start table schema) := by
  induction rest generalizing s passed count with
  | nil => exact .ret ⟨rfl, passed, by simpa [scanEntries] using at_, rfl⟩
  | cons entry rest ih =>
      obtain ⟨id, row⟩ := entry
      have current := still.2 (id, row) List.mem_cons_self
      refine EndsAs.seq (endsAs_lift (selects whereClause row schema.colNames)) ?_
      rintro selected s' _ - - ⟨rfl, rfl⟩
      cases selected with
      | false =>
          have at_' : AtTable start table schema ((passed ++ [(id, row.values)]) ++ scanEntries rest)
              s' := by
            rw [List.append_assoc]
            exact at_
          have ends := @ih _ count _ at_' still.skip
          rw [List.map_append] at ends
          exact ends
      | true =>
          obtain ⟨mid, ran, removed, step⟩ := removeRow_removes txnId at_ current
          exact EndsAs.step ran (ih removed (still.tail step))

omit [Runtime] in
theorem span_of_split {α : Type} {p : α → Bool} {before after : List α} {a : α}
    (passes : ∀ b ∈ before, p b = true) (stops : p a = false) :
    (before ++ a :: after).span p = (before, a :: after) := by
  rw [List.span_eq_takeWhile_dropWhile, List.takeWhile_append_of_pos passes,
    List.dropWhile_append_of_pos passes, List.takeWhile_cons_of_neg (by simp [stops]),
    List.dropWhile_cons_of_neg (by simp [stops]), List.append_nil]

omit [Runtime] in
theorem scan_eq_toList (storage : StorageEngine) (table : String) :
    storage.scan table = (storage.rowTable table).rows.toList := by
  unfold StorageEngine.scan StorageEngine.rowTable
  rw [ExtTreeMap.getD_eq_getD_getElem?]
  cases storage.tables[table]? <;> rfl

omit [Runtime] in
/-- A scan lists the table. -/
theorem lists_scan (storage : StorageEngine) (table : String) :
    Lists (scanEntries (storage.scan table)) (storage.contents.table table) := by
  refine ⟨?_, fun id values => ?_⟩
  · unfold scanEntries
    rw [List.map_map, scan_eq_toList]
    exact List.pairwise_map.mpr (ExtTreeMap.ordered_keys_toList.imp fun ordered =>
      Nat.compare_eq_lt.mp ordered)
  · unfold scanEntries Contents.table StorageEngine.contents
    rw [List.mem_map, Option.map_eq_some_iff]
    constructor
    · rintro ⟨⟨id, row⟩, member, same⟩
      cases same
      exact ⟨row, StorageEngine.mem_scan.mp member, rfl⟩
    · rintro ⟨row, stored, rfl⟩
      exact ⟨(id, row), StorageEngine.mem_scan.mpr stored, rfl⟩

omit [Runtime] in
/-- **The row an index finds** is the first one with the key. -/
theorem AtTable.findKey {entries : List (Nat × List Value)}
    (at_ : AtTable start table schema entries s) (columns : List String) (values : List Value) :
    ((s.storage.rowTable table).findKey columns schema.colNames values = none ∧
      (entries.map Prod.snd).span (fun row => !sameKey columns schema.colNames row values) =
        (entries.map Prod.snd, [])) ∨
    ∃ before id existing after, entries = before ++ (id, existing.values) :: after ∧
      (s.storage.rowTable table).findKey columns schema.colNames values = some (id, existing) ∧
      s.storage.view (table, id) = some existing ∧
      (entries.map Prod.snd).span (fun row => !sameKey columns schema.colNames row values) =
        (before.map Prod.snd, existing.values :: after.map Prod.snd) := by
  have rows : entries = scanEntries (s.storage.rowTable table).rows.toList := by
    rw [← scan_eq_toList]
    exact at_.lists.unique (lists_scan s.storage table)
  unfold RowTable.findKey
  cases found : (s.storage.rowTable table).rows.toList.find? fun entry =>
      IndexKey.ofValues (keyValues columns entry.2.values schema.colNames) =
        IndexKey.ofValues (keyValues columns values schema.colNames) with
  | none =>
      refine .inl ⟨rfl, ?_⟩
      have passes : ∀ row ∈ entries.map Prod.snd,
          (!sameKey columns schema.colNames row values) = true := by
        intro row member
        rw [rows, scanEntries, List.map_map] at member
        obtain ⟨entry, inside, rfl⟩ := List.mem_map.mp member
        have apart := List.find?_eq_none.mp found entry inside
        rw [decide_eq_true_iff] at apart
        rw [Bool.not_eq_true', Bool.eq_false_iff]
        exact fun same => apart (sameKey_iff.mp same)
      rw [List.span_eq_takeWhile_dropWhile, List.takeWhile_eq_self_iff.mpr passes,
        List.dropWhile_eq_nil_iff.mpr passes]
  | some entry =>
      obtain ⟨same, before, after, split, apart⟩ := List.find?_eq_some_iff_append.mp found
      rw [decide_eq_true_iff] at same
      refine .inr ⟨scanEntries before, entry.1, entry.2, scanEntries after, ?_, rfl, ?_, ?_⟩
      · rw [rows, split]
        simp [scanEntries]
      · rw [← rowTable_getElem?, ← ExtTreeMap.mem_toList_iff_getElem?_eq_some, split]
        exact List.mem_append_right _ List.mem_cons_self
      · have whole : entries.map Prod.snd = (scanEntries before).map Prod.snd ++
            entry.2.values :: (scanEntries after).map Prod.snd := by
          rw [rows, split]
          simp [scanEntries]
        rw [whole]
        refine span_of_split ?_ ?_
        · intro row member
          rw [scanEntries, List.map_map] at member
          obtain ⟨other, inside, rfl⟩ := List.mem_map.mp member
          have differ := apart other inside
          rw [Bool.not_eq_true', decide_eq_false_iff_not] at differ
          rw [Bool.not_eq_true', Bool.eq_false_iff]
          exact fun key => differ (sameKey_iff.mp key)
        · rw [Bool.not_eq_false']
          exact sameKey_iff.mpr same

/-- **`DO UPDATE` on the row in conflict.** -/
theorem applyConflictUpdate_endsAs {before after : List (Nat × List Value)} {id : Nat}
    {existing : Row} {proposed : List Value} {update : DoUpdate}
    (at_ : AtTable start table schema (before ++ (id, existing.values) :: after) s)
    (current : s.storage.view (table, id) = some existing) :
    EndsAs (applyConflictUpdate table schema id proposed update txnId s)
      (actOnConflict schema (.doUpdate update) proposed (before.map Prod.snd ++ after.map Prod.snd)
        existing.values)
      fun _ s' changed => changed.1 = 1 ∧
        AtTable start table schema (before ++ (id, changed.2) :: after) s' := by
  have acts : ∀ applies : Bool,
      EndsAs ((if applies then
          rewriteRow table schema update.assignments (some proposed) txnId id existing
        else pure () : ExecM Unit) s)
      (if applies then (reviseRow schema update.assignments (some proposed)
          (before.map Prod.snd ++ after.map Prod.snd) existing.values).map fun values => (1, values)
        else some (1, existing.values))
      fun _ s' changed => changed.1 = 1 ∧
        AtTable start table schema (before ++ (id, changed.2) :: after) s' := by
    intro applies
    cases applies with
    | false => exact .ret ⟨rfl, at_⟩
    | true =>
        refine EndsAs.of_map ((rewriteRow_endsAs at_ current).mono ?_)
        exact fun _ _ _ _ _ replaced => ⟨rfl, replaced⟩
  refine EndsAs.read ?_
  rw [StorageEngine.get_eq_view, current]
  dsimp only [actOnConflict, conflictApplies]
  cases update.selection with
  | none => exact acts true
  | some condition =>
      refine EndsAs.seq (endsAs_lift (evalWhereWithExcluded condition existing.values
        schema.colNames (some proposed))) ?_
      rintro applies s' _ - - ⟨rfl, rfl⟩
      exact acts applies

/-- **The row loop of `INSERT`.** -/
theorem insertRows_endsAs {onConflict : Option OnConflict} {values : List (List Value)}
    {rows : List (List Value)} (at_ : AtRows start table schema s rows) :
    EndsAs (insertRows table schema onConflict txnId values count s)
      (insertAll schema onConflict values count rows) (Stored start table schema) := by
  induction values generalizing s count rows with
  | nil => exact .ret ⟨rfl, at_⟩
  | cons values rest ih =>
      obtain ⟨entries, at_, rfl⟩ := at_
      unfold insertAll acceptedValues
      rw [toOption_bind, Option.bind_assoc]
      refine EndsAs.seq (endsAs_lift (coerceRow schema values)) ?_
      rintro proposed s' _ - - ⟨rfl, rfl⟩
      rw [toOption_bind, Option.bind_assoc]
      refine EndsAs.seq (endsAs_lift (validateRow schema proposed)) ?_
      rintro u s' _ - - ⟨-, rfl⟩
      -- a new row, and the rows behind it
      have stores : EndsAs ((do
            storeRow table schema txnId proposed
            insertRows table schema onConflict txnId rest (count + 1) : ExecM Nat) s')
          (((addRow schema (entries.map Prod.snd) proposed).map fun rows => (1, rows)).bind
            fun stored => insertAll schema onConflict rest (count + stored.1) stored.2)
          (Stored start table schema) := by
        rw [Option.bind_map]
        refine EndsAs.seq (storeRow_endsAs at_) ?_
        exact fun _ _ _ _ _ stored => ih stored
      change EndsAs _ ((storeProposed schema onConflict (entries.map Prod.snd) proposed).bind _) _
      unfold storeProposed
      cases onConflict with
      | none => exact stores
      | some conflict =>
          refine EndsAs.read ?_
          dsimp only
          cases target : resolveConflictColumns schema conflict with
          | error e =>
              refine endsAs_refused ⟨e, ?_⟩
              rw [findConflictRow, target]
              rfl
          | ok cols =>
              change EndsAs _ (((findUniqueIndexForColumns schema cols).bind _).bind _) _
              cases index : findUniqueIndexForColumns schema cols with
              | none =>
                  have refused : ∃ e, findConflictRow s'.indexes schema table conflict proposed =
                      .error e := by
                    simp only [findConflictRow, target, index, bind, Except.bind]
                    exact ⟨_, rfl⟩
                  exact endsAs_refused refused
              | some name =>
                  obtain ⟨definition, member, rfl, unique, same⟩ :=
                    findUniqueIndexForColumns_eq_some index
                  have conflicting := findConflictRow_eq_ok at_.consistent at_.known target member
                    unique index same proposed
                  have keys : (fun row => !sameKey cols schema.colNames row proposed) =
                      fun row => !sameKey definition.columns schema.colNames row proposed := by
                    funext row
                    unfold sameKey
                    rw [keyValues_congr same, keyValues_congr same]
                  rw [Option.bind_some, keys]
                  refine EndsAs.step (ExecM.lift_eq_ok.mpr ⟨conflicting, rfl⟩) ?_
                  rcases at_.findKey definition.columns proposed with
                    ⟨free, spans⟩ | ⟨before, id, existing, after, rfl, taken, current, spans⟩
                  · rw [free, spans]
                    exact stores
                  · rw [taken, spans]
                    dsimp only [Option.map_some]
                    cases action : conflict.action with
                    | doNothing => exact ih ⟨_, at_, by rw [List.map_append]; rfl⟩
                    | doUpdate update =>
                        dsimp only
                        rw [Option.bind_map]
                        refine EndsAs.seq (applyConflictUpdate_endsAs at_ current) ?_
                        rintro u mid ⟨n, values⟩ - - ⟨rfl, updated⟩
                        exact ih ⟨_, updated, by rw [List.map_append]; rfl⟩

end Loops

end MoodengSQL
