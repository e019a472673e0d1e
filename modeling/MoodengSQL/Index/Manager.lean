import MoodengSQL.Index.Exact

/-!
# The index manager and the rows of every table

What inserting and removing a row does to each index of a table, and the
agreement of all indexes with all rows. A row change takes the old key out and
puts the new key in; it keeps the agreement, and the insertion is accepted when
the changed rows still differ in the keys of every unique index.
-/

namespace MoodengSQL

open Std

/-- A row's place: table and row id. -/
abbrev RowKey := String × Nat

/-- The values of the rows of every table. -/
abbrev Contents := RowKey → Option (List Value)

/-- The rows of one table. -/
def Contents.table (contents : Contents) (table : String) : Nat → Option (List Value) :=
  fun rowId => contents (table, rowId)

theorem Contents.table_update_self (contents : Contents) (table : String) (rowId : Nat)
    (values : Option (List Value)) :
    Contents.table (Function.update contents (table, rowId) values) table =
      Function.update (contents.table table) rowId values := by
  funext other
  simp only [Contents.table, Function.update_apply, Prod.mk.injEq, true_and]

theorem Contents.table_update_of_ne (contents : Contents) {table other : String} (rowId : Nat)
    (values : Option (List Value)) (differ : other ≠ table) :
    Contents.table (Function.update contents (table, rowId) values) other =
      contents.table other := by
  funext row
  simp [Contents.table, differ]

namespace IndexManager

/-- An index by table and name. -/
def index? (manager : IndexManager) (table name : String) : Option BTreeIndex :=
  (manager.getD table ∅)[name]?

theorem index?_insert (manager : IndexManager) (table other name : String)
    (indexes : TableIndexes) :
    index? (ExtTreeMap.insert manager table indexes) other name =
      if other = table then indexes[name]? else manager.index? other name := by
  simp only [index?, ExtTreeMap.getD_insert, Std.compare_eq_iff_eq]
  split <;> split <;> simp_all

/-- The two states of an index around an accepted insertion of a row. -/
def Inserted (values : List Value) (columnNames : List String) (rowId : Nat) :
    Option BTreeIndex → Option BTreeIndex → Prop
  | none, after => after = none
  | some index, after => ∃ index',
      index.insert (keyValues index.columns values columnNames) rowId = .ok index' ∧
        after = some index'

section InsertEach

variable {values : List Value} {columnNames : List String} {rowId : Nat}

theorem insertEach_eq_ok {names : List String} (distinct : names.Nodup)
    {indexes indexes' : TableIndexes}
    (ran : insertEach values columnNames rowId names indexes = (.ok (), indexes')) (name : String) :
    (name ∈ names → Inserted values columnNames rowId indexes[name]? indexes'[name]?) ∧
      (name ∉ names → indexes'[name]? = indexes[name]?) := by
  induction names generalizing indexes with
  | nil =>
      cases ran
      simp
  | cons first rest ih =>
      obtain ⟨fresh, distinct⟩ := List.nodup_cons.mp distinct
      unfold insertEach at ran
      cases found : indexes[first]? with
      | none =>
          rw [found] at ran
          obtain ⟨visited, skipped⟩ := ih distinct ran
          refine ⟨fun member => ?_, fun outside => skipped fun inside =>
            outside (List.mem_cons_of_mem _ inside)⟩
          rcases List.mem_cons.mp member with rfl | member
          · rw [skipped fresh, found]
            rfl
          · exact visited member
      | some index =>
          rw [found] at ran
          dsimp only at ran
          cases inserted : index.insert (keyValues index.columns values columnNames) rowId with
          | error e =>
              rw [inserted] at ran
              cases ran
          | ok index' =>
              rw [inserted] at ran
              obtain ⟨visited, skipped⟩ := ih distinct ran
              rw [ExtTreeMap.getElem?_insert] at visited skipped
              refine ⟨fun member => ?_, fun outside => ?_⟩
              · rcases List.mem_cons.mp member with rfl | member
                · rw [skipped fresh, found]
                  exact ⟨index', inserted, by simp⟩
                · have differ : first ≠ name := fun same => fresh (same ▸ member)
                  have reached := visited member
                  rwa [if_neg (by simpa using differ)] at reached
              · have differ : first ≠ name := fun same => outside (same ▸ List.mem_cons_self)
                have kept := skipped fun inside => outside (List.mem_cons_of_mem _ inside)
                rwa [if_neg (by simpa using differ)] at kept

theorem insertEach_accepts {names : List String} (distinct : names.Nodup)
    {indexes : TableIndexes}
    (accepts : ∀ (name : String) (index : BTreeIndex), indexes[name]? = some index → ∃ index',
      index.insert (keyValues index.columns values columnNames) rowId = .ok index') :
    ∃ indexes', insertEach values columnNames rowId names indexes = (.ok (), indexes') := by
  suffices general : ∀ indexes : TableIndexes,
      (∀ name ∈ names, ∀ index : BTreeIndex, indexes[name]? = some index → ∃ index',
        index.insert (keyValues index.columns values columnNames) rowId = .ok index') →
      ∃ indexes', insertEach values columnNames rowId names indexes = (.ok (), indexes') from
    general indexes fun name _ => accepts name
  clear accepts indexes
  induction names with
  | nil => exact fun indexes _ => ⟨indexes, rfl⟩
  | cons first rest ih =>
      intro indexes accepts
      obtain ⟨fresh, distinct⟩ := List.nodup_cons.mp distinct
      unfold insertEach
      cases found : indexes[first]? with
      | none => exact ih distinct indexes fun name member =>
          accepts name (List.mem_cons_of_mem _ member)
      | some index =>
          obtain ⟨index', inserted⟩ := accepts first List.mem_cons_self index found
          simp only [inserted]
          refine ih distinct _ fun name member other present => ?_
          have differ : first ≠ name := fun same => fresh (same ▸ member)
          rw [ExtTreeMap.getElem?_insert, if_neg (by simpa using differ)] at present
          exact accepts name (List.mem_cons_of_mem _ member) other present

/-- The loop changes no definition, wherever it stops. -/
theorem definition_insertEach (values : List Value) (columnNames : List String) (rowId : Nat)
    (names : List String) (indexes : TableIndexes) (name : String) :
    ((insertEach values columnNames rowId names indexes).2[name]?).map BTreeIndex.definition =
      (indexes[name]?).map BTreeIndex.definition := by
  induction names generalizing indexes with
  | nil => rfl
  | cons first rest ih =>
      unfold insertEach
      cases found : indexes[first]? with
      | none => exact ih indexes
      | some index =>
          dsimp only
          cases inserted : index.insert (keyValues index.columns values columnNames) rowId with
          | error e => rfl
          | ok index' =>
              refine (ih _).trans ?_
              rw [ExtTreeMap.getElem?_insert]
              split
              · rename_i here
                obtain rfl : first = name := LawfulEqOrd.eq_of_compare here
                rw [found, Option.map_some, Option.map_some, (BTreeIndex.insert_eq_ok inserted).1]
              · rfl

end InsertEach

section Rows

variable [Runtime] {manager manager' : IndexManager} {table : String} {values : List Value}
  {columnNames : List String} {rowId : Nat}

private theorem visited_nodup (table : String) (indexes : TableIndexes) :
    (Runtime.hashOrder.order table indexes.keys).Nodup :=
  (Runtime.hashOrder.perm table indexes.keys).nodup_iff.mpr ExtTreeMap.nodup_keys

private theorem mem_visited {table name : String} {indexes : TableIndexes} :
    name ∈ Runtime.hashOrder.order table indexes.keys ↔ name ∈ indexes :=
  (Runtime.hashOrder.perm table indexes.keys).mem_iff.trans ExtTreeMap.mem_keys

/-- An accepted `insert_row` inserts the row into every index of the table and
touches no other index. -/
theorem insertRow_eq_ok
    (ran : manager.insertRow table values columnNames rowId = (.ok (), manager'))
    (other name : String) :
    if other = table then
      Inserted values columnNames rowId (manager.index? other name) (manager'.index? other name)
    else manager'.index? other name = manager.index? other name := by
  unfold insertRow at ran
  cases found : manager[table]? with
  | none =>
      rw [found] at ran
      cases ran
      split
      · subst_vars
        simp [index?, ExtTreeMap.getD_eq_getD_getElem?, found, Inserted]
      · rfl
  | some indexes =>
      have indexesOf : manager.getD table ∅ = indexes := by
        simp [ExtTreeMap.getD_eq_getD_getElem?, found]
      rw [found] at ran
      obtain ⟨result, stored⟩ := Prod.ext_iff.mp ran
      have steps := insertEach_eq_ok (visited_nodup table indexes) (Prod.ext result rfl) name
      have same : ExtTreeMap.insert manager table (insertEach values columnNames rowId
        (Runtime.hashOrder.order table indexes.keys) indexes).2 = manager' := stored
      rw [← same, index?_insert]
      split
      · rename_i here
        subst here
        rw [index?, indexesOf]
        by_cases member : name ∈ indexes
        · exact steps.1 (mem_visited.mpr member)
        · rw [steps.2 fun inside => member (mem_visited.mp inside),
            ExtTreeMap.getElem?_eq_none member]
          rfl
      · rfl

/-- `insert_row` is accepted when every index of the table accepts the row. -/
theorem insertRow_accepts
    (accepts : ∀ name index, manager.index? table name = some index → ∃ index',
      index.insert (keyValues index.columns values columnNames) rowId = .ok index') :
    ∃ manager', manager.insertRow table values columnNames rowId = (.ok (), manager') := by
  unfold insertRow
  cases found : manager[table]? with
  | none => exact ⟨manager, rfl⟩
  | some indexes =>
      have indexesOf : manager.getD table ∅ = indexes := by
        simp [ExtTreeMap.getD_eq_getD_getElem?, found]
      have each : ∀ (name : String) (index : BTreeIndex), indexes[name]? = some index → ∃ index',
          index.insert (keyValues index.columns values columnNames) rowId = .ok index' := by
        rw [← indexesOf]
        exact accepts
      obtain ⟨indexes', ran⟩ := insertEach_accepts (visited_nodup table indexes) each
      exact ⟨ExtTreeMap.insert manager table indexes', by simp [ran]⟩

omit [Runtime] in
/-- `remove_row` removes the row from every index of the table and touches no other. -/
theorem index?_removeRow (other name : String) :
    (manager.removeRow table values columnNames rowId).index? other name =
      if other = table then
        (manager.index? other name).map fun index =>
          index.remove (keyValues index.columns values columnNames) rowId
      else manager.index? other name := by
  unfold removeRow
  cases found : manager[table]? with
  | none =>
      dsimp only
      split
      · subst_vars
        simp [index?, ExtTreeMap.getD_eq_getD_getElem?, found]
      · rfl
  | some indexes =>
      dsimp only
      rw [index?_insert]
      split
      · subst_vars
        simp [index?, ExtTreeMap.getD_eq_getD_getElem?, found, ExtTreeMap.getElem?_map]
      · rfl

end Rows

end IndexManager

/-- Every index of a catalog table is exact for the table's rows. -/
def Agree (catalog : Catalog) (manager : IndexManager) (contents : Contents) : Prop :=
  ∀ ⦃table schema name index⦄, catalog[table]? = some schema →
    manager.index? table name = some index →
      IndexExact index schema.colNames (contents.table table)

/-- Rows of a catalog table differ in the keys of its unique indexes. -/
def Distinguishes (catalog : Catalog) (manager : IndexManager) (contents : Contents) : Prop :=
  ∀ ⦃table schema name index⦄, catalog[table]? = some schema →
    manager.index? table name = some index → index.unique →
      ∀ ⦃left right leftValues rightValues⦄, contents (table, left) = some leftValues →
        contents (table, right) = some rightValues →
          index.keyOf schema.colNames leftValues = index.keyOf schema.colNames rightValues →
            left = right

theorem Agree.distinguishes {catalog : Catalog} {manager : IndexManager} {contents : Contents}
    (agree : Agree catalog manager contents) : Distinguishes catalog manager contents :=
  fun _ _ _ _ known found unique _ _ _ _ leftRow rightRow sameKey =>
    (agree known found).eq_of_key_eq unique leftRow rightRow sameKey

/-- The managers have the same indexes up to their entries. -/
def SameDefinitions (manager manager' : IndexManager) : Prop :=
  ∀ table name, (manager'.index? table name).map BTreeIndex.definition =
    (manager.index? table name).map BTreeIndex.definition

theorem SameDefinitions.symm {manager manager' : IndexManager}
    (same : SameDefinitions manager manager') : SameDefinitions manager' manager :=
  fun table name => (same table name).symm

theorem SameDefinitions.trans {first second third : IndexManager}
    (before : SameDefinitions first second) (after : SameDefinitions second third) :
    SameDefinitions first third :=
  fun table name => (after table name).trans (before table name)

theorem Distinguishes.of_sameDefinitions {catalog : Catalog} {manager manager' : IndexManager}
    {contents : Contents} (distinct : Distinguishes catalog manager contents)
    (same : SameDefinitions manager manager') : Distinguishes catalog manager' contents := by
  intro table schema name index known found unique left right leftValues rightValues leftRow
    rightRow sameKey
  have definition := same table name
  rw [found, Option.map_some] at definition
  obtain ⟨old, foundOld, sameDefinition⟩ := Option.map_eq_some_iff.mp definition.symm
  have sameUnique : old.unique = index.unique := congrArg IndexMeta.unique sameDefinition
  refine distinct known foundOld (sameUnique ▸ unique) leftRow rightRow ?_
  rwa [IndexExact.keyOf_eq_of_definition sameDefinition]

/-- The index work of a row change: the old key is taken out, the new one put in. -/
def Reindexed [Runtime] (manager : IndexManager) (table : String) (columnNames : List String)
    (rowId : Nat) (before after : Option (List Value)) (manager' : IndexManager) : Prop :=
  let removed := match before with
    | some values => manager.removeRow table values columnNames rowId
    | none => manager
  match after with
  | some values => removed.insertRow table values columnNames rowId = (.ok (), manager')
  | none => manager' = removed

section RowChange

variable [Runtime] {catalog : Catalog} {manager manager' : IndexManager} {contents : Contents}
  {table : String} {schema : TableSchema} {rowId : Nat} {values : List Value}

/-- Inserting keys changes no definition, also when it stops half way. -/
theorem sameDefinitions_insertRow (manager : IndexManager) (table : String) (values : List Value)
    (columnNames : List String) (rowId : Nat) :
    SameDefinitions manager (manager.insertRow table values columnNames rowId).2 := by
  intro other name
  unfold IndexManager.insertRow
  cases found : manager[table]? with
  | none => rfl
  | some indexes =>
      have indexesOf : manager.getD table ∅ = indexes := by
        simp [ExtTreeMap.getD_eq_getD_getElem?, found]
      dsimp only
      rw [IndexManager.index?_insert]
      split
      · rename_i here
        subst here
        rw [IndexManager.definition_insertEach, IndexManager.index?, indexesOf]
      · rfl

theorem sameDefinitions_of_insertRow {columnNames : List String}
    (inserted : manager.insertRow table values columnNames rowId = (.ok (), manager')) :
    SameDefinitions manager manager' := by
  have same := sameDefinitions_insertRow manager table values columnNames rowId
  rw [inserted] at same
  exact same

omit [Runtime] in
theorem sameDefinitions_removeRow (manager : IndexManager) (table : String) (values : List Value)
    (columnNames : List String) (rowId : Nat) :
    SameDefinitions manager (manager.removeRow table values columnNames rowId) := by
  intro other name
  rw [IndexManager.index?_removeRow]
  split
  · rw [Option.map_map]
    congr 1
    funext index
    exact index.definition_remove _ _
  · rfl

theorem Reindexed.sameDefinitions {columnNames : List String} {before after : Option (List Value)}
    (reindexed : Reindexed manager table columnNames rowId before after manager') :
    SameDefinitions manager manager' := by
  unfold Reindexed at reindexed
  cases before with
  | none =>
      cases after with
      | none => exact fun _ _ => by rw [reindexed]
      | some values => exact sameDefinitions_of_insertRow reindexed
  | some old =>
      have removed := sameDefinitions_removeRow manager table old columnNames rowId
      cases after with
      | none => exact fun other name => by rw [reindexed, removed other name]
      | some values => exact removed.trans (sameDefinitions_of_insertRow reindexed)

/-- A row change touches the indexes of its own table only. -/
theorem Reindexed.index?_of_ne {columnNames : List String} {before after : Option (List Value)}
    (reindexed : Reindexed manager table columnNames rowId before after manager') {other : String}
    (elsewhere : other ≠ table) (name : String) :
    manager'.index? other name = manager.index? other name := by
  have removed : ∀ values, (manager.removeRow table values columnNames rowId).index? other name =
      manager.index? other name := fun values => by
    rw [IndexManager.index?_removeRow, if_neg elsewhere]
  have inserted : ∀ {manager manager' : IndexManager} {values : List Value},
      manager.insertRow table values columnNames rowId = (.ok (), manager') →
      manager'.index? other name = manager.index? other name := fun accepted => by
    have step := IndexManager.insertRow_eq_ok accepted other name
    rwa [if_neg elsewhere] at step
  unfold Reindexed at reindexed
  cases before with
  | none =>
      cases after with
      | none => rw [reindexed]
      | some values => exact inserted reindexed
  | some old =>
      cases after with
      | none => rw [reindexed, removed]
      | some values => exact (inserted reindexed).trans (removed old)

theorem Agree.insertRow (agree : Agree catalog manager contents)
    (known : catalog[table]? = some schema) (absent : contents (table, rowId) = none)
    (inserted : manager.insertRow table values schema.colNames rowId = (.ok (), manager')) :
    Agree catalog manager' (Function.update contents (table, rowId) (some values)) := by
  intro other otherSchema name index otherKnown found
  have step := IndexManager.insertRow_eq_ok inserted other name
  by_cases here : other = table
  · subst here
    rw [known] at otherKnown
    cases otherKnown
    rw [if_pos rfl, found] at step
    rw [Contents.table_update_self]
    cases before : manager.index? other name with
    | none =>
        rw [before] at step
        cases step
    | some old =>
        rw [before] at step
        obtain ⟨index', accepted, stored⟩ := step
        cases stored
        exact (agree known before).insert absent accepted
  · rw [if_neg here, found] at step
    rw [Contents.table_update_of_ne _ _ _ here]
    exact agree otherKnown step.symm

omit [Runtime] in
/-- Taking out the keys of a stored row, or of an image that has all of them in
common with it. -/
theorem Agree.removeRow_sameKeys (agree : Agree catalog manager contents)
    (known : catalog[table]? = some schema) {current : List Value}
    (present : contents (table, rowId) = some current)
    (same : ∀ name index, manager.index? table name = some index →
      index.keyOf schema.colNames current = index.keyOf schema.colNames values) :
    Agree catalog (manager.removeRow table values schema.colNames rowId)
      (Function.update contents (table, rowId) none) := by
  intro other otherSchema name index otherKnown found
  rw [IndexManager.index?_removeRow] at found
  by_cases here : other = table
  · subst here
    rw [known] at otherKnown
    cases otherKnown
    rw [if_pos rfl] at found
    obtain ⟨old, before, rfl⟩ := Option.map_eq_some_iff.mp found
    rw [Contents.table_update_self]
    exact (agree known before).remove_sameKey present (same name old before)
  · rw [if_neg here] at found
    rw [Contents.table_update_of_ne _ _ _ here]
    exact agree otherKnown found

omit [Runtime] in
theorem Agree.removeRow (agree : Agree catalog manager contents)
    (known : catalog[table]? = some schema) (present : contents (table, rowId) = some values) :
    Agree catalog (manager.removeRow table values schema.colNames rowId)
      (Function.update contents (table, rowId) none) :=
  agree.removeRow_sameKeys known present fun _ _ _ => rfl

omit [Runtime] in
/-- Taking out the keys of an image that shares none with the stored row. -/
theorem Agree.removeRow_other (agree : Agree catalog manager contents)
    (known : catalog[table]? = some schema)
    (other : ∀ name index, manager.index? table name = some index →
      ∀ current, contents (table, rowId) = some current →
        index.keyOf schema.colNames current ≠ index.keyOf schema.colNames values) :
    Agree catalog (manager.removeRow table values schema.colNames rowId) contents := by
  intro elsewhere otherSchema name index otherKnown found
  rw [IndexManager.index?_removeRow] at found
  by_cases here : elsewhere = table
  · subst here
    rw [known] at otherKnown
    cases otherKnown
    rw [if_pos rfl] at found
    obtain ⟨old, before, rfl⟩ := Option.map_eq_some_iff.mp found
    exact (agree known before).remove_other (other name old before)
  · rw [if_neg here] at found
    exact agree otherKnown found

/-- A row change keeps the indexes in agreement with the rows. -/
theorem Agree.reindexed (agree : Agree catalog manager contents)
    (known : catalog[table]? = some schema) {before after : Option (List Value)}
    (current : contents (table, rowId) = before)
    (reindexed : Reindexed manager table schema.colNames rowId before after manager') :
    Agree catalog manager' (Function.update contents (table, rowId) after) := by
  unfold Reindexed at reindexed
  cases before with
  | none =>
      cases after with
      | none =>
          have unchanged : Function.update contents (table, rowId) none = contents := by
            rw [← current, Function.update_eq_self]
          rw [unchanged, reindexed]
          exact agree
      | some values => exact agree.insertRow known current reindexed
  | some old =>
      have removed := agree.removeRow known current
      cases after with
      | none =>
          rw [reindexed]
          exact removed
      | some values =>
          have inserted := removed.insertRow known (Function.update_self ..) reindexed
          rwa [Function.update_idem] at inserted

/-- A row change is accepted when the changed rows still differ in their keys. -/
theorem Agree.exists_reindexed (agree : Agree catalog manager contents)
    (known : catalog[table]? = some schema) {before after : Option (List Value)}
    (current : contents (table, rowId) = before)
    (distinct : Distinguishes catalog manager (Function.update contents (table, rowId) after)) :
    ∃ manager', Reindexed manager table schema.colNames rowId before after manager' := by
  cases after with
  | none => exact ⟨_, rfl⟩
  | some values =>
      have accepts : ∀ (removed : IndexManager) (others : Contents),
          Agree catalog removed others → SameDefinitions manager removed →
          (∀ key stored, others key = some stored →
            key ≠ (table, rowId) ∧ contents key = some stored) →
          ∃ manager', removed.insertRow table values schema.colNames rowId =
            (.ok (), manager') := by
        intro removed others agreed same rest
        refine IndexManager.insertRow_accepts fun name index found => ?_
        refine (agreed known found).accepts fun unique other stored present sameKey => ?_
        obtain ⟨differ, kept⟩ := rest (table, other) stored present
        have sameRow := distinct.of_sameDefinitions same known found unique
          ((Function.update_of_ne differ _ _).trans kept) (Function.update_self ..) sameKey
        exact differ (by rw [sameRow])
      cases before with
      | none =>
          obtain ⟨manager', inserted⟩ := accepts manager contents agree (fun _ _ => rfl)
            fun key stored present => by
              refine ⟨fun same => ?_, present⟩
              rw [same, current] at present
              cases present
          exact ⟨manager', inserted⟩
      | some old =>
          obtain ⟨manager', inserted⟩ := accepts _ _ (agree.removeRow known current)
            (sameDefinitions_removeRow _ _ _ _ _) fun key stored present => by
              by_cases same : key = (table, rowId)
              · rw [same, Function.update_self] at present
                cases present
              · rw [Function.update_of_ne same] at present
                exact ⟨same, present⟩
          exact ⟨manager', inserted⟩

end RowChange

end MoodengSQL
