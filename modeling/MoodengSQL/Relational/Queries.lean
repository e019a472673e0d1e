import MoodengSQL.Foundation.Agreement
import MoodengSQL.Relational.Tables

/-!
# Queries over relations

`SELECT` of the engine answers what the relations answer: a join keeps the pairs of
rows that satisfy its condition, and a scan through an exact index keeps the rows that
a scan of the table keeps.
-/

namespace MoodengSQL

open Foundation Foundation.Effect Std

section Filters

variable [Runtime] {whereClause : Option Expr} {colNames : List String}

theorem filterRows_cons (row : Row) (rest : List Row) :
    filterRows whereClause colNames (row :: rest) = (do
      let keep ← selects whereClause row colNames
      let kept ← filterRows whereClause colNames rest
      .ok (if keep then row :: kept else kept)) := by
  cases whereClause <;> rfl

theorem filterRows_append (rows rows' : List Row) :
    filterRows whereClause colNames (rows ++ rows') = (do
      let kept ← filterRows whereClause colNames rows
      let kept' ← filterRows whereClause colNames rows'
      .ok (kept ++ kept')) := by
  induction rows with
  | nil =>
      change filterRows whereClause colNames rows' =
        (filterRows whereClause colNames rows' >>= Except.ok)
      cases filterRows whereClause colNames rows' <;> rfl
  | cons row rest ih =>
      rw [List.cons_append, filterRows_cons, filterRows_cons, ih]
      cases selects whereClause row colNames with
      | error e => rfl
      | ok keep =>
          cases filterRows whereClause colNames rest with
          | error e => rfl
          | ok kept =>
              cases filterRows whereClause colNames rows' with
              | error e => rfl
              | ok kept' => cases keep <;> rfl

/-- The filter looks at the values of the rows only. -/
theorem filterRows_values (rows : List Row) :
    (filterRows whereClause colNames rows).map (List.map Row.values) =
      (filterRows whereClause colNames (rows.map fun row => Row.new row.values)).map
        (List.map Row.values) := by
  induction rows with
  | nil => rfl
  | cons row rest ih =>
      rw [List.map_cons, filterRows_cons, filterRows_cons]
      have same : selects whereClause (Row.new row.values) colNames =
          selects whereClause row colNames := rfl
      rw [same]
      cases selects whereClause row colNames with
      | error e => rfl
      | ok keep =>
          cases first : filterRows whereClause colNames rest with
          | error e =>
              rw [first] at ih
              cases second : filterRows whereClause colNames
                  (rest.map fun row => Row.new row.values) with
              | error e' =>
                  rw [second] at ih
                  exact ih
              | ok kept =>
                  rw [second] at ih
                  cases ih
          | ok kept =>
              rw [first] at ih
              cases second : filterRows whereClause colNames
                  (rest.map fun row => Row.new row.values) with
              | error e' =>
                  rw [second] at ih
                  cases ih
              | ok kept' =>
                  rw [second] at ih
                  have values : kept.map Row.values = kept'.map Row.values := Except.ok.inj ih
                  cases keep with
                  | false => exact congrArg Except.ok values
                  | true => exact congrArg (fun kept => Except.ok (row.values :: kept)) values

end Filters

/-- The relations hold the catalog and the rows of the database. -/
structure SameRows (db : Database) (rel : Relations) : Prop where
  catalog : rel.catalog = db.catalog
  rows : ∀ table, rel.rows table = (db.storage.scan table).map fun entry => entry.2.values

section Joining

variable [Runtime] {db : Database} {rel : Relations}

omit [Runtime] in
theorem getTable_toOption (catalog : Catalog) (table : String) :
    (catalog.getTable table).toOption = catalog[table]? := by
  unfold Catalog.getTable
  cases catalog[table]? <;> rfl

omit [Runtime] in
theorem SameRows.scan (same : SameRows db rel) (table : String) :
    rel.scan table = (db.storage.scan table).map fun entry => Row.new entry.2.values := by
  rw [Relations.scan, same.rows, List.map_map]
  rfl

/-- A row is joined with the rows of the next table that satisfy the condition. -/
theorem joinRow_eq (condition : Expr) (colNames : List String) (left : Row)
    (entries : List (Nat × Row)) :
    joinRow condition colNames left entries = filterRows (some condition) colNames
      ((entries.map fun entry => Row.new entry.2.values).map (Relations.pair left)) := by
  induction entries with
  | nil => rfl
  | cons entry rest ih =>
      rw [List.map_cons, List.map_cons, filterRows_cons, joinRow, ih]
      rfl

/-- The rows of a join, one after the other, are the pairs that satisfy the condition. -/
theorem mapM_joinRow (condition : Expr) (colNames : List String) (rows : List Row)
    (entries : List (Nat × Row)) :
    (rows.mapM fun row => joinRow condition colNames row entries).map List.flatten =
      filterRows (some condition) colNames (rows.flatMap fun left =>
        (entries.map fun entry => Row.new entry.2.values).map (Relations.pair left)) := by
  induction rows with
  | nil => rfl
  | cons row rest ih =>
      rw [List.mapM_cons, List.flatMap_cons, filterRows_append, ← ih, joinRow_eq]
      cases filterRows (some condition) colNames
          ((entries.map fun entry => Row.new entry.2.values).map (Relations.pair row)) with
      | error e => rfl
      | ok kept =>
          cases rest.mapM fun row => joinRow condition colNames row entries <;> rfl

theorem joinTables_toOption (same : SameRows db rel) (joins : List Join) (colNames : List String)
    (rows : List Row) :
    (joinTables db colNames rows joins).toOption = rel.join colNames rows joins := by
  induction joins generalizing colNames rows with
  | nil => rfl
  | cons join rest ih =>
      unfold joinTables Relations.join
      rw [toOption_bind]
      refine Option.bind_congr fun joined _ => ?_
      obtain ⟨table, condition⟩ := joined
      dsimp only
      rw [toOption_bind, getTable_toOption, same.catalog]
      refine Option.bind_congr fun schema _ => ?_
      rw [same.scan, ← mapM_joinRow, toOption_bind]
      cases rows.mapM fun row => joinRow condition (colNames ++ qualifiedColumns table schema) row
          (db.storage.scan table) with
      | error e => rfl
      | ok joined => exact ih _ joined.flatten

/-- **A `SELECT` with joins** answers what the relations answer. -/
theorem selectJoin_toOption (same : SameRows db rel) (query : Query) (select : Select)
    (item : TableWithJoins) :
    (MoodengSQL.selectJoin db query select item).toOption = rel.selectJoin query select item := by
  unfold MoodengSQL.selectJoin Relations.selectJoin
  dsimp only
  rw [toOption_bind, getTable_toOption, same.catalog]
  refine Option.bind_congr fun schema _ => ?_
  rw [toOption_bind, joinTables_toOption same, same.scan]
  refine Option.bind_congr fun joined _ => ?_
  exact toOption_bind

end Joining

section Selecting

variable [Runtime] {db : Database} {rel : Relations} {query : Query} {select : Select}
  {table : String} {schema : TableSchema}

/-- A plan that keeps the rows, in some order, answers what the relations answer. -/
theorem selects_of_kept {kept : Except Failure (List Row)}
    (sameRows : (∃ e e', kept = .error e ∧
        filterRows select.selection schema.colNames (rel.scan table) = .error e') ∨
      ∃ rows rows', kept = .ok rows ∧
        filterRows select.selection schema.colNames (rel.scan table) = .ok rows' ∧
        (rows.map Row.values).Perm (rows'.map Row.values) ∧
        ((select.selection.bind extractEquality).isNone →
          rows.map Row.values = rows'.map Row.values)) :
    rel.Selects query select table schema (kept >>= fun rows =>
      finalizeSelect query select (Relations.outputColumns select schema.colNames) rows
        schema.colNames).toOption := by
  intro plain
  rcases sameRows with ⟨e, e', rfl, refused⟩ | ⟨rows, rows', rfl, accepted, perm, inOrder⟩
  · rw [refused]
    rfl
  · rw [accepted]
    exact ⟨rows, perm, inOrder, rfl⟩

omit [Runtime] in
theorem map_eq_map_cases {α β : Type} {left right : Except Failure α} {f : α → β}
    (same : left.map f = right.map f) :
    (∃ e, left = .error e ∧ right = .error e) ∨
      ∃ a b, left = .ok a ∧ right = .ok b ∧ f a = f b := by
  cases left with
  | error e =>
      cases right with
      | error e' =>
          cases same
          exact .inl ⟨e, rfl, rfl⟩
      | ok b => cases same
  | ok a =>
      cases right with
      | error e' => cases same
      | ok b => exact .inr ⟨a, b, rfl, rfl, Except.ok.inj same⟩

/-- A scan of the table keeps the rows that the relations keep. -/
theorem keptRows_fullScan (same : SameRows db rel) (table : String) (whereClause : Option Expr)
    (colNames : List String) :
    (keptRows db table whereClause colNames .fullScan).map (List.map Row.values) =
      (filterRows whereClause colNames (rel.scan table)).map (List.map Row.values) := by
  have scanned : rel.scan table =
      ((db.storage.scan table).map Prod.snd).map fun row => Row.new row.values := by
    rw [same.scan, List.map_map]
    rfl
  rw [scanned, ← filterRows_values]
  rfl

/-- **A `SELECT` from one table** answers what the relations answer. -/
theorem select_selects (same : SameRows db rel) (stored : table ∈ db.storage.tables)
    (exact : ∀ name index, db.indexes.index? table name = some index →
      IndexExact index schema.colNames (db.storage.contents.table table)) :
    rel.Selects query select table schema
      (keptRows db table select.selection schema.colNames
          (planScan table select.selection db.indexes schema.colNames) >>= fun rows =>
        finalizeSelect query select (Relations.outputColumns select schema.colNames) rows
          schema.colNames).toOption := by
  intro plain
  have full := map_eq_map_cases
    (keptRows_fullScan same table select.selection schema.colNames)
  refine selects_of_kept ?_ plain
  cases planned : planScan table select.selection db.indexes schema.colNames with
  | fullScan =>
      rcases full with ⟨e, failed, refused⟩ | ⟨rows, rows', kept, accepted, values⟩
      · exact .inl ⟨e, e, failed, refused⟩
      · exact .inr ⟨rows, rows', kept, accepted, .of_eq values, fun _ => values⟩
  | indexLookup indexName keys =>
      obtain ⟨expr, column, literal, _, _, selection, extracted, -⟩ :=
        planScan_eq_indexLookup planned
      have compares : (select.selection.bind extractEquality).isSome = true := by
        rw [selection, Option.bind_some, extracted]
        rfl
      obtain ⟨names, noFloats⟩ := plain compares
      have floatFree : ∀ entry ∈ db.storage.scan table, ∀ value ∈ entry.2.values,
          value.isFloat = false := by
        intro entry member
        refine noFloats entry.2.values ?_
        rw [same.rows]
        exact List.mem_map_of_mem member
      obtain ⟨rows, scanned, kept, keptScan, perm⟩ :=
        keptRows_indexLookup stored exact names floatFree planned
      rcases full with ⟨e, failed, -⟩ | ⟨rows', kept', scanned', accepted, values⟩
      · cases failed.symm.trans keptScan
      · cases keptScan.symm.trans scanned'
        refine .inr ⟨rows, kept', kept, accepted, ?_, fun none => ?_⟩
        · rw [← values]
          exact perm.map Row.values
        · rw [Option.isNone_iff_eq_none] at none
          rw [none] at compares
          cases compares

/-- **A `SELECT` of the engine** answers what the relations answer. -/
theorem select_answers (same : SameRows db rel)
    (stored : ∀ table ∈ db.catalog, table ∈ db.storage.tables)
    (agree : Agree db.catalog db.indexes db.storage.contents) :
    rel.Answers query (MoodengSQL.select db query).toOption := by
  unfold Relations.Answers
  cases body : query.body with
  | select select =>
      dsimp only
      cases relations : select.relations with
      | nil =>
          simp only [MoodengSQL.select, body, relations]
          rfl
      | cons item rest =>
          dsimp only
          by_cases joins : item.joins ≠ []
          · rw [if_pos joins, ← selectJoin_toOption same]
            simp only [MoodengSQL.select, body, relations]
            rw [if_pos joins]
          · rw [if_neg joins, select_eq body relations (not_not.mp joins), same.catalog,
              toOption_bind, getTable_toOption]
            cases known : db.catalog[item.relation.name]? with
            | none => rfl
            | some schema =>
                exact select_selects same (stored _ (Map.mem_of_getElem?_eq_some known))
                  fun name index present => agree known present
  | _ =>
      simp only [MoodengSQL.select, body]
      rfl

end Selecting

end MoodengSQL
