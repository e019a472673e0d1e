import MoodengSQL.Paging.Reopening

/-!
# Migrating a table to pages

A table that was saved in a `.dat` file is imported into pages when it is loaded
with a page cache. The import takes several steps, and a process may end behind
any of them with the files as they are. The next load looks at the `.pages` file
alone, which is there from the first step on.
-/

namespace MoodengSQL

open Foundation Foundation.Effect Std

variable [Runtime] (codec : PageCodec)

section Loading

/-- The files of a table: `{table}.pages` and `{table}.dat`. -/
structure TableFiles where
  pages : Option (List UInt8)
  dat : Option (FileImage TableData)

/-- `TableBackend`. -/
inductive TableBackend where
  | memory (data : TableData)
  | paged (pt : PageTable)

namespace PageTable

/-- The row loop of `import_rows`, over the rows as the hash map yields them. -/
def importEach : List (Nat × Row) → PageM Unit
  | [] => return ()
  | (rowId, row) :: rest => do
      putRow codec rowId row
      importEach rest

/-- `import_rows`. -/
def importRows (nextId : Nat) (rows : List (Nat × Row)) : PageM Unit := do
  modify fun pt => { pt with nextId }
  importEach codec rows
  writeHeader

/-- `flush_all`: the header, and the mapping, which is the file. -/
def flushAll : PageM Unit := writeHeader

end PageTable

/-- `load_table`, with the rows of the `.dat` file as the hash map yields them.
It returns the table, or why there is none, and the files it leaves. -/
def loadTable (maxCachedPages rowsPerPage : Nat) (rows : List (Nat × Row)) (files : TableFiles) :
    Except Failure TableBackend × TableFiles :=
  match files.pages with
  | some _ =>
      let pt := PageTable.open files.pages (max maxCachedPages 1) rowsPerPage
      (.ok (.paged pt), { files with pages := pt.file })
  | none =>
      if 0 < maxCachedPages then
        let pt := PageTable.open none maxCachedPages rowsPerPage
        match files.dat with
        | some image =>
            match (do
              PageTable.importRows codec (StorageEngine.readTableFile image).nextId rows
              PageTable.flushAll) pt with
            | .ok _ pt => (.ok (.paged pt), { pages := pt.file, dat := none })
            | .error failure pt => (.error failure, { files with pages := pt.file })
        | none => (.ok (.paged pt), { files with pages := pt.file })
      else
        match files.dat with
        | some image => (.ok (.memory (StorageEngine.readTableFile image)), files)
        | none => (.ok (.memory .empty), files)

end Loading

section Steps

/-- How far the migration of a table has come: nothing is done; the `.pages`
file is there, with rows left to put; the header is written; the file is flushed;
the `.dat` file is removed. -/
inductive Migration where
  | begun
  | importing (pt : PageTable) (left : List (Nat × Row))
  | imported (pt : PageTable)
  | flushed (pt : PageTable)
  | finished (pt : PageTable)

variable (maxCachedPages rowsPerPage : Nat) (legacy : TableData) (order : List (Nat × Row))

/-- The next step of the migration, if it does not fail. -/
def Migration.step : Migration → Option Migration
  | .begun =>
      some (.importing
        { PageTable.open none maxCachedPages rowsPerPage with nextId := legacy.nextId } order)
  | .importing pt ((rowId, row) :: left) =>
      match PageTable.putRow codec rowId row pt with
      | .ok _ pt => some (.importing pt left)
      | .error _ _ => none
  | .importing pt [] =>
      match PageTable.writeHeader pt with
      | .ok _ pt => some (.imported pt)
      | .error _ _ => none
  | .imported pt =>
      match PageTable.flushAll pt with
      | .ok _ pt => some (.flushed pt)
      | .error _ _ => none
  | .flushed pt => some (.finished pt)
  | .finished _ => none

/-- A migration comes this far. -/
inductive Migration.Reached : Migration → Prop
  | begun : Reached .begun
  | step {before after : Migration} (reached : Reached before)
      (stepped : before.step codec maxCachedPages rowsPerPage legacy order = some after) :
      Reached after

/-- The files of a table whose migration has come this far. -/
def Migration.files (image : FileImage TableData) : Migration → TableFiles
  | .begun => { pages := none, dat := some image }
  | .importing pt _ => { pages := pt.file, dat := some image }
  | .imported pt => { pages := pt.file, dat := some image }
  | .flushed pt => { pages := pt.file, dat := some image }
  | .finished pt => { pages := pt.file, dat := none }

/-- The load gives a table with the legacy rows and the legacy next id. -/
def Restores (loaded : Except Failure TableBackend × TableFiles) : Prop :=
  ∃ pt, loaded.1 = .ok (.paged pt) ∧ pt.nextId = legacy.nextId ∧
    PageTable.answer (PageTable.scan codec) pt = .ok legacy.scan

/-- The rows fit their pages, as these fill up. -/
def ImportFits : (Nat → PageBody) → List (Nat × Row) → Prop
  | _, [] => True
  | pages, (rowId, row) :: rest =>
      let page := pageNumber rowsPerPage rowId
      HasPage rowsPerPage rowId ∧ Fits codec ((pages page).insert rowId row) ∧
        ImportFits (Function.update pages page ((pages page).insert rowId row)) rest

/-- The migration may end here: nothing is done and the import goes through when
it is begun again, or every row has been put and the header is the legacy one. -/
def Migration.Safe (again : List (Nat × Row)) : Migration → Prop
  | .begun => ImportFits codec rowsPerPage (fun _ => ∅) again
  | .importing _ left => left = [] ∧ (order ≠ [] ∨ legacy.nextId = 0)
  | .imported _ => True
  | .flushed _ => True
  | .finished _ => True

end Steps

section Import

variable {codec} {maxCachedPages rowsPerPage : Nat} {legacy : TableData}
  {order : List (Nat × Row)} {pt : PageTable} {data : PagedRows}

/-- The rows that have been put are the rows of the pages, and the table has the
legacy next id in memory. -/
structure Imported (codec : PageCodec) (rowsPerPage : Nat) (legacy : TableData) (pt : PageTable)
    (data : PagedRows) (done : List (Nat × Row)) : Prop where
  stands : Stands codec rowsPerPage pt data
  nextId : data.nextId = legacy.nextId
  placed : data.Placed rowsPerPage
  exact : ∀ (rowId : Nat) (row : Row), (∃ page, (data.pages page)[rowId]? = some row) ↔
    (rowId, row) ∈ done

/-- What the header of the file says while rows are put: nothing before the
first one, whose page the table grows to. -/
def importHeader (data : PagedRows) (done : List (Nat × Row)) : Nat × Nat :=
  if done = [] then (0, 0) else (data.nextId, data.pageCount)

/-- The rows of a `.dat` file, in some order. -/
structure ListsRows (legacy : TableData) (rowsPerPage : Nat) (order : List (Nat × Row)) : Prop where
  perm : order.Perm legacy.rows.toList
  page : ∀ entry ∈ order, pageNumber rowsPerPage entry.1 + 1 < 2 ^ 32

omit [Runtime] in
theorem ListsRows.mem_iff (lists : ListsRows legacy rowsPerPage order) (rowId : Nat) (row : Row) :
    (rowId, row) ∈ order ↔ legacy.rows[rowId]? = some row := by
  rw [lists.perm.mem_iff, ExtTreeMap.mem_toList_iff_getElem?_eq_some]

omit [Runtime] in
theorem ListsRows.nodup (lists : ListsRows legacy rowsPerPage order) :
    (order.map Prod.fst).Nodup := by
  rw [(lists.perm.map Prod.fst).nodup_iff, ExtTreeMap.map_fst_toList_eq_keys]
  exact ExtTreeMap.nodup_keys

/-- `bincode` decodes back every page of legacy rows. -/
def DecodesRows (codec : PageCodec) (legacy : TableData) : Prop :=
  ∀ body : PageBody, (∀ (rowId : Nat) (row : Row), body[rowId]? = some row →
    legacy.rows[rowId]? = some row) → Decodes codec body

/-- The page of a new row has legacy rows only. -/
theorem Imported.decodes {done left : List (Nat × Row)} {rowId : Nat} {row : Row}
    (imported : Imported codec rowsPerPage legacy pt data done)
    (lists : ListsRows legacy rowsPerPage (done ++ (rowId, row) :: left))
    (decodes : DecodesRows codec legacy) :
    Decodes codec (data.withRow rowsPerPage rowId row) := by
  apply decodes
  intro other found present
  rw [← lists.mem_iff]
  rw [PagedRows.withRow, ExtTreeMap.getElem?_insert] at present
  split at present
  · rename_i same
    obtain rfl := LawfulEqOrd.eq_of_compare same
    obtain rfl := Option.some.inj present
    exact List.mem_append_right _ List.mem_cons_self
  · exact List.mem_append_left _ ((imported.exact other found).mp ⟨_, present⟩)

/-- **A row is put**: its page is the one computed for it, and the header is
written by the first row at the latest. -/
theorem Imported.put {done left : List (Nat × Row)} {rowId : Nat} {row : Row}
    (imported : Imported codec rowsPerPage legacy pt data done)
    (started : done = [] → data.pageCount = 0)
    (header : PageTable.readHeader pt.file = importHeader data done)
    (lists : ListsRows legacy rowsPerPage (done ++ (rowId, row) :: left))
    (decodes : DecodesRows codec legacy) (numbered : HasPage rowsPerPage rowId)
    (fits : Fits codec (data.withRow rowsPerPage rowId row)) :
    ∃ pt' data', PageTable.putRow codec rowId row pt = .ok () pt' ∧
      Imported codec rowsPerPage legacy pt' data' (done ++ [(rowId, row)]) ∧
      data'.pages = Function.update data.pages (pageNumber rowsPerPage rowId)
        (data.withRow rowsPerPage rowId row) ∧
      PageTable.readHeader pt'.file = (data'.nextId, data'.pageCount) := by
  have decoded := imported.decodes lists decodes
  have bound := lists.page _ (List.mem_append_right done List.mem_cons_self)
  have stands := imported.stands
  obtain rfl := stands.rowsPerPage
  set page := pageNumber pt.rowsPerPage rowId with numbers
  obtain ⟨pt', put, held, grown⟩ := stands.holds.putRow numbered (by omega) fits decoded
  have pageCount := stands.pageCount
  have pageCountSmall := stands.pageCountSmall
  have count : pt'.pageCount = max data.pageCount (page + 1) := by
    rw [grown.pageCount, pageCount]
  have nextId : pt'.nextId = data.nextId := grown.nextId.trans stands.nextId
  refine ⟨pt', ⟨data.nextId, max data.pageCount (page + 1),
    Function.update data.pages page (data.withRow pt.rowsPerPage rowId row)⟩, put,
    ⟨⟨held, grown.rowsPerPage, nextId, count, stands.nextIdSmall, ?_⟩, imported.nextId, ?_, ?_⟩,
    rfl, ?_⟩
  · change max data.pageCount _ < _
    omega
  · intro other found member
    by_cases here : other = page
    · subst here
      dsimp only at member
      rw [Function.update_self] at member
      rcases ExtTreeMap.mem_insert.mp member with same | before
      · obtain rfl := LawfulEqOrd.eq_of_compare same
        exact ⟨numbered, rfl⟩
      · exact imported.placed _ found before
    · dsimp only at member
      rw [Function.update_of_ne here] at member
      exact imported.placed other found member
  · intro found value
    dsimp only
    rw [List.mem_append, List.mem_singleton, Prod.mk.injEq, ← imported.exact]
    constructor
    · rintro ⟨other, present⟩
      by_cases here : other = page
      · subst here
        rw [Function.update_self, PagedRows.withRow, ExtTreeMap.getElem?_insert] at present
        split at present
        · rename_i same
          exact .inr ⟨(LawfulEqOrd.eq_of_compare same).symm, (Option.some.inj present).symm⟩
        · exact .inl ⟨_, present⟩
      · rw [Function.update_of_ne here] at present
        exact .inl ⟨other, present⟩
    · rintro (⟨other, present⟩ | ⟨rfl, rfl⟩)
      · by_cases here : other = page
        · subst here
          have differs : ¬ compare rowId found = .eq := by
            intro same
            obtain rfl := LawfulEqOrd.eq_of_compare same
            have nodup := lists.nodup
            rw [List.map_append, List.map_cons, List.nodup_middle] at nodup
            have listed := (imported.exact rowId value).mp ⟨_, present⟩
            have again : rowId ∈ done.map Prod.fst := List.mem_map.mpr ⟨_, listed, rfl⟩
            exact nodup.notMem (List.mem_append_left _ again)
          refine ⟨page, ?_⟩
          rw [Function.update_self, PagedRows.withRow, ExtTreeMap.getElem?_insert, if_neg differs]
          exact present
        · refine ⟨other, ?_⟩
          rw [Function.update_of_ne here]
          exact present
      · refine ⟨page, ?_⟩
        rw [Function.update_self, PagedRows.withRow, ExtTreeMap.getElem?_insert_self]
  · by_cases old : page < pt.pageCount
    · have begun : done ≠ [] := by
        intro none
        have empty := started none
        omega
      rw [grown.kept old, header, importHeader, if_neg begun]
      dsimp only
      rw [Nat.max_eq_left (by omega)]
    · have small := stands.nextIdSmall
      rw [grown.written (Nat.not_lt.mp old), writtenHeader_eq (by omega) (by omega), nextId, count]

/-- A row that cannot be put stops the import. -/
theorem Imported.put_fails {done : List (Nat × Row)} {rowId : Nat} {row : Row}
    (imported : Imported codec rowsPerPage legacy pt data done)
    (page : pageNumber rowsPerPage rowId + 1 < 2 ^ 32)
    (fails : ¬ (HasPage rowsPerPage rowId ∧ Fits codec (data.withRow rowsPerPage rowId row))) :
    ∃ failure pt', PageTable.putRow codec rowId row pt = .error failure pt' := by
  have holds := imported.stands.holds
  obtain rfl := imported.stands.rowsPerPage
  by_cases numbered : HasPage pt.rowsPerPage rowId
  · obtain ⟨pt', refused, -⟩ :=
      holds.putRow_overflow numbered (by omega) fun fits => fails ⟨numbered, fits⟩
    exact ⟨_, pt', refused⟩
  · obtain ⟨reason, panics⟩ := pageId_panics numbered
    refine ⟨.panic reason, pt, ?_⟩
    unfold PageTable.putRow
    rw [get_bind, bind_eq_error]
    exact .inl (panics pt)

/-- Writing the header records the legacy next id. -/
theorem Imported.writeHeader {done : List (Nat × Row)}
    (imported : Imported codec rowsPerPage legacy pt data done) :
    ∃ pt', PageTable.writeHeader pt = .ok () pt' ∧
      Imported codec rowsPerPage legacy pt' data done ∧
      PageTable.readHeader pt'.file = (data.nextId, data.pageCount) := by
  have stands := imported.stands
  obtain ⟨file, wrote, held, header⟩ := stands.holds.writeHeader
  refine ⟨_, wrote, ⟨⟨held, stands.rowsPerPage, stands.nextId, stands.pageCount,
    stands.nextIdSmall, stands.pageCountSmall⟩, imported.nextId, imported.placed,
    imported.exact⟩, ?_⟩
  have nextIdSmall := stands.nextIdSmall
  have pageCountSmall := stands.pageCountSmall
  rw [← stands.nextId] at nextIdSmall
  rw [← stands.pageCount] at pageCountSmall
  rw [header, writtenHeader_eq nextIdSmall pageCountSmall, stands.nextId, stands.pageCount]

/-- A table whose file was created for the import. -/
theorem imported_fresh (maxCachedPages rowsPerPage : Nat) (small : legacy.nextId < 2 ^ 64) :
    Imported codec rowsPerPage legacy
      { PageTable.open none maxCachedPages rowsPerPage with nextId := legacy.nextId }
      ⟨legacy.nextId, 0, fun _ => ∅⟩ [] where
  stands :=
    have held := holdsPages_fresh codec maxCachedPages rowsPerPage
    ⟨⟨held.mapped, held.slots, held.cache, held.unused⟩, rfl, rfl, rfl, small, Nat.two_pow_pos 32⟩
  nextId := rfl
  placed := fun _ _ member => absurd member ExtTreeMap.not_mem_empty
  exact rowId row := by
    refine iff_of_false ?_ List.not_mem_nil
    rintro ⟨page, present⟩
    rw [ExtTreeMap.getElem?_empty] at present
    cases present

/-- A scan of the pages shows the legacy rows exactly when all have been put. -/
theorem Imported.scan_iff {done left : List (Nat × Row)} {table : PageTable}
    (imported : Imported codec rowsPerPage legacy pt data done)
    (lists : ListsRows legacy rowsPerPage (done ++ left))
    (held : HoldsPages codec table data.pages) (count : table.pageCount = data.pageCount) :
    PageTable.answer (PageTable.scan codec) table = .ok legacy.scan ↔ left = [] := by
  obtain ⟨_, scanned, -⟩ := held.scan
  rw [PageTable.answer, scanned, Except.ok.injEq]
  constructor
  · intro same
    cases left with
    | nil => rfl
    | cons entry rest =>
        obtain ⟨rowId, row⟩ := entry
        have listed : (rowId, row) ∈ legacy.scan := by
          rw [TableData.scan, ExtTreeMap.mem_toList_iff_getElem?_eq_some, ← lists.mem_iff]
          exact List.mem_append_right _ List.mem_cons_self
        rw [← same, PageTable.sortById, (List.perm_insertionSort _ _).mem_iff,
          mem_entriesOf] at listed
        obtain ⟨page, -, present⟩ := listed
        have again := (imported.exact rowId row).mp ⟨page, present⟩
        have nodup := lists.nodup
        rw [List.map_append, List.map_cons, List.nodup_middle] at nodup
        have named : rowId ∈ done.map Prod.fst := List.mem_map.mpr ⟨_, again, rfl⟩
        exact absurd (List.mem_append_left _ named) nodup.notMem
  · rintro rfl
    rw [List.append_nil] at lists
    apply sortById_of_perm
    apply entriesOf_perm imported.placed.once
    intro rowId row
    rw [← lists.mem_iff, ← imported.exact, count]
    constructor
    · rintro ⟨page, _, present⟩
      exact ⟨page, present⟩
    · rintro ⟨page, present⟩
      refine ⟨page, ?_, present⟩
      by_contra high
      rw [← count] at high
      rw [held.unused page (Nat.not_lt.mp high), ExtTreeMap.getElem?_empty] at present
      cases present

/-- **Loading the pages of an import** gives the legacy table exactly when all
rows have been put and the header has the legacy next id. -/
theorem Imported.restores_iff {done left : List (Nat × Row)}
    (imported : Imported codec rowsPerPage legacy pt data done)
    (lists : ListsRows legacy rowsPerPage (done ++ left)) {nextId : Nat}
    (header : PageTable.readHeader pt.file = (nextId, data.pageCount))
    (again : List (Nat × Row)) (dat : Option (FileImage TableData)) :
    Restores codec legacy (loadTable codec maxCachedPages rowsPerPage again
      { pages := pt.file, dat }) ↔ left = [] ∧ nextId = legacy.nextId := by
  have stands := imported.stands
  obtain ⟨bytes, file, -⟩ := stands.holds.slots
  set reopened := PageTable.open pt.file (max maxCachedPages 1) rowsPerPage with opens
  have loads : loadTable codec maxCachedPages rowsPerPage again { pages := pt.file, dat } =
      (.ok (.paged reopened), { pages := reopened.file, dat }) := by
    rw [opens, loadTable, file]
  have pageCount : (PageTable.readHeader pt.file).2 = pt.pageCount := by
    rw [header, stands.pageCount]
  obtain ⟨held, -, sameId, sameCount, -⟩ :=
    stands.holds.reopen pageCount (max maxCachedPages 1) rowsPerPage
  rw [header, ← opens] at sameId
  have restores : Restores codec legacy (loadTable codec maxCachedPages rowsPerPage again
      { pages := pt.file, dat }) ↔
      reopened.nextId = legacy.nextId ∧
        PageTable.answer (PageTable.scan codec) reopened = .ok legacy.scan := by
    rw [loads]
    constructor
    · rintro ⟨pt', same, restored⟩
      cases same
      exact restored
    · exact fun restored => ⟨reopened, rfl, restored⟩
  rw [restores, sameId, and_comm]
  exact and_congr_left' (imported.scan_iff lists held (sameCount.trans stands.pageCount))

/-- A row can be put exactly when it has a page that fits with it. -/
theorem Imported.put_iff {done left : List (Nat × Row)} {rowId : Nat} {row : Row}
    (imported : Imported codec rowsPerPage legacy pt data done)
    (lists : ListsRows legacy rowsPerPage (done ++ (rowId, row) :: left)) {pt' : PageTable}
    (put : PageTable.putRow codec rowId row pt = .ok () pt') :
    HasPage rowsPerPage rowId ∧ Fits codec (data.withRow rowsPerPage rowId row) := by
  by_contra fails
  have page := lists.page _ (List.mem_append_right done List.mem_cons_self)
  obtain ⟨failure, other, failed⟩ := imported.put_fails page fails
  cases put.symm.trans failed

/-- The row loop of an import goes through exactly when the rows fit. -/
theorem Imported.importEach {done left : List (Nat × Row)}
    (imported : Imported codec rowsPerPage legacy pt data done)
    (started : done = [] → data.pageCount = 0)
    (header : PageTable.readHeader pt.file = importHeader data done)
    (lists : ListsRows legacy rowsPerPage (done ++ left)) (decodes : DecodesRows codec legacy) :
    (ImportFits codec rowsPerPage data.pages left → ∃ pt' data',
      PageTable.importEach codec left pt = .ok () pt' ∧
        Imported codec rowsPerPage legacy pt' data' (done ++ left)) ∧
      (¬ ImportFits codec rowsPerPage data.pages left →
        Fails (PageTable.importEach codec left) pt) := by
  induction left generalizing pt data done with
  | nil =>
      rw [List.append_nil]
      exact ⟨fun _ => ⟨pt, data, rfl, imported⟩, fun unfit => absurd trivial unfit⟩
  | cons entry rest ih =>
      obtain ⟨rowId, row⟩ := entry
      by_cases fits : HasPage rowsPerPage rowId ∧ Fits codec (data.withRow rowsPerPage rowId row)
      · obtain ⟨pt', data', put, imported', pages, header'⟩ :=
          imported.put started header lists decodes fits.1 fits.2
        have more : done ++ [(rowId, row)] ≠ [] := List.append_ne_nil_of_right_ne_nil _ nofun
        have header'' : PageTable.readHeader pt'.file =
            importHeader data' (done ++ [(rowId, row)]) := by
          rw [header', importHeader, if_neg more]
        have split : done ++ (rowId, row) :: rest = done ++ [(rowId, row)] ++ rest := by
          rw [List.append_assoc, List.singleton_append]
        rw [split] at lists ⊢
        obtain ⟨goes, stops⟩ := ih imported' (fun none => absurd none more) header'' lists
        have later : ImportFits codec rowsPerPage data.pages ((rowId, row) :: rest) ↔
            ImportFits codec rowsPerPage data'.pages rest := by
          rw [pages]
          exact ⟨fun all => all.2.2, fun rest => ⟨fits.1, fits.2, rest⟩⟩
        rw [later]
        constructor
        · intro restFits
          obtain ⟨pt'', data'', imports, done'⟩ := goes restFits
          refine ⟨pt'', data'', ?_, done'⟩
          rw [PageTable.importEach, bind_of_ok put]
          exact imports
        · intro unfit
          rw [PageTable.importEach, fails_bind_of_ok put]
          exact stops unfit
      · have page := lists.page _ (List.mem_append_right done List.mem_cons_self)
        obtain ⟨failure, pt', failed⟩ := imported.put_fails page fits
        refine ⟨fun all => absurd ⟨all.1, all.2.1⟩ fits, fun _ => ?_⟩
        rw [PageTable.importEach]
        exact fails_bind_of_error failed

/-- What an import comes to: the rows in their pages and the legacy next id in the header,
or a failure if the rows do not fit. -/
theorem importRows_spec (maxCachedPages : Nat) (small : legacy.nextId < 2 ^ 64)
    (lists : ListsRows legacy rowsPerPage order) (decodes : DecodesRows codec legacy) :
    (ImportFits codec rowsPerPage (fun _ => ∅) order → ∃ pt data,
      (do
        PageTable.importRows codec legacy.nextId order
        PageTable.flushAll) (PageTable.open none maxCachedPages rowsPerPage) = .ok () pt ∧
        Imported codec rowsPerPage legacy pt data order ∧
        PageTable.readHeader pt.file = (data.nextId, data.pageCount)) ∧
      (¬ ImportFits codec rowsPerPage (fun _ => ∅) order → Fails (do
        PageTable.importRows codec legacy.nextId order
        PageTable.flushAll) (PageTable.open none maxCachedPages rowsPerPage)) := by
  set created := PageTable.open none maxCachedPages rowsPerPage with opens
  have fresh : Imported codec rowsPerPage legacy { created with nextId := legacy.nextId }
      ⟨legacy.nextId, 0, fun _ => ∅⟩ [] := imported_fresh maxCachedPages rowsPerPage small
  obtain ⟨goes, stops⟩ := fresh.importEach (fun _ => rfl)
    (readHeader_fresh maxCachedPages rowsPerPage) lists decodes
  constructor
  · intro fits
    obtain ⟨pt, data, ran, imported⟩ := goes fits
    obtain ⟨pt', wrote, imported', -⟩ := imported.writeHeader
    obtain ⟨pt'', flushed, imported'', header⟩ := imported'.writeHeader
    have rows : PageTable.importRows codec legacy.nextId order created = .ok () pt' := by
      unfold PageTable.importRows
      rw [modify_bind, bind_of_ok ran, wrote]
    refine ⟨pt'', data, ?_, imported'', header⟩
    rw [bind_of_ok rows]
    exact flushed
  · intro unfit
    obtain ⟨failure, failed, ran⟩ := stops unfit
    refine ⟨failure, failed, ?_⟩
    unfold PageTable.importRows
    rw [bind_eq_error, modify_bind, bind_eq_error]
    exact .inl (.inl ran)

/-- **Loading the `.dat` file** gives the legacy table exactly when its rows fit
their pages. -/
theorem restores_dat_iff {image : FileImage TableData} (cached : 0 < maxCachedPages)
    (small : (StorageEngine.readTableFile image).nextId < 2 ^ 64)
    (lists : ListsRows (StorageEngine.readTableFile image) rowsPerPage order)
    (decodes : DecodesRows codec (StorageEngine.readTableFile image)) :
    Restores codec (StorageEngine.readTableFile image)
        (loadTable codec maxCachedPages rowsPerPage order { pages := none, dat := some image }) ↔
      ImportFits codec rowsPerPage (fun _ => ∅) order := by
  obtain ⟨goes, stops⟩ := importRows_spec maxCachedPages small lists decodes
  constructor
  · rintro ⟨pt, loaded, -⟩
    by_contra unfit
    obtain ⟨failure, failed, stopped⟩ := stops unfit
    simp only [loadTable, if_pos cached, stopped] at loaded
    cases loaded
  · intro fits
    obtain ⟨pt, data, ran, imported, -⟩ := goes fits
    have stands := imported.stands
    refine ⟨pt, ?_, stands.nextId.trans imported.nextId, ?_⟩
    · simp only [loadTable, if_pos cached, ran]
    · rw [← List.append_nil order] at lists
      exact (imported.scan_iff lists stands.holds stands.pageCount).mpr rfl

end Import

section Crashes

variable {codec} {maxCachedPages rowsPerPage : Nat} {legacy : TableData}
  {order : List (Nat × Row)}

/-- How the import ends from here on, if the process goes on. -/
def Migration.outcome (codec : PageCodec) (maxCachedPages rowsPerPage : Nat) (legacy : TableData)
    (order : List (Nat × Row)) : Migration → EStateM.Result Failure PageTable Unit
  | .begun =>
      (do
        PageTable.importRows codec legacy.nextId order
        PageTable.flushAll) (.open none maxCachedPages rowsPerPage)
  | .importing pt left =>
      ((do
        PageTable.importEach codec left
        PageTable.writeHeader) >>= fun _ => PageTable.flushAll) pt
  | .imported pt => PageTable.flushAll pt
  | .flushed pt => .ok () pt
  | .finished pt => .ok () pt

theorem Migration.outcome_step {before after : Migration}
    (stepped : before.step codec maxCachedPages rowsPerPage legacy order = some after) :
    after.outcome codec maxCachedPages rowsPerPage legacy order =
      before.outcome codec maxCachedPages rowsPerPage legacy order := by
  cases before with
  | begun =>
      cases stepped
      rfl
  | importing pt left =>
      cases left with
      | nil =>
          simp only [Migration.step] at stepped
          split at stepped
          · rename_i wrote
            cases stepped
            simp only [Migration.outcome, PageTable.importEach, bind, EStateM.bind, pure,
              EStateM.pure, wrote]
          · cases stepped
      | cons entry left =>
          simp only [Migration.step] at stepped
          split at stepped
          · rename_i put
            cases stepped
            simp only [Migration.outcome, PageTable.importEach, bind, EStateM.bind, put]
          · cases stepped
  | imported pt =>
      simp only [Migration.step] at stepped
      split at stepped
      · rename_i flushed
        cases stepped
        exact flushed.symm
      · cases stepped
  | flushed pt =>
      cases stepped
      rfl
  | finished pt => cases stepped

/-- **The steps of a migration that comes to its end are those of the load.** -/
theorem Migration.Reached.loadTable {image : FileImage TableData} {pt : PageTable}
    (cached : 0 < maxCachedPages)
    (reached : Reached codec maxCachedPages rowsPerPage (StorageEngine.readTableFile image) order
      (.finished pt)) :
    loadTable codec maxCachedPages rowsPerPage order { pages := none, dat := some image } =
      (.ok (.paged pt), { pages := pt.file, dat := none }) := by
  have outcome {m : Migration} (reached : Reached codec maxCachedPages rowsPerPage
      (StorageEngine.readTableFile image) order m) :
      m.outcome codec maxCachedPages rowsPerPage (StorageEngine.readTableFile image) order =
        Migration.begun.outcome codec maxCachedPages rowsPerPage
          (StorageEngine.readTableFile image) order := by
    induction reached with
    | begun => rfl
    | step _ stepped ih => exact (Migration.outcome_step stepped).trans ih
  have ran := (outcome reached).symm
  simp only [Migration.outcome] at ran
  simp only [MoodengSQL.loadTable, if_pos cached, ran]

/-- What is known of a migration that has come this far. -/
def Migration.Sound (codec : PageCodec) (rowsPerPage : Nat) (legacy : TableData)
    (order : List (Nat × Row)) : Migration → Prop
  | .begun => True
  | .importing pt left => ∃ done data, order = done ++ left ∧
      Imported codec rowsPerPage legacy pt data done ∧ (done = [] → data.pageCount = 0) ∧
      PageTable.readHeader pt.file = importHeader data done
  | .imported pt => ∃ data, Imported codec rowsPerPage legacy pt data order ∧
      PageTable.readHeader pt.file = (data.nextId, data.pageCount)
  | .flushed pt => ∃ data, Imported codec rowsPerPage legacy pt data order ∧
      PageTable.readHeader pt.file = (data.nextId, data.pageCount)
  | .finished pt => ∃ data, Imported codec rowsPerPage legacy pt data order ∧
      PageTable.readHeader pt.file = (data.nextId, data.pageCount)

/-- One step of a migration: rows are put in the pages computed for them. -/
theorem Migration.Sound.step (small : legacy.nextId < 2 ^ 64)
    (lists : ListsRows legacy rowsPerPage order) (decodes : DecodesRows codec legacy)
    {before after : Migration} (sound : before.Sound codec rowsPerPage legacy order)
    (stepped : before.step codec maxCachedPages rowsPerPage legacy order = some after) :
    after.Sound codec rowsPerPage legacy order := by
  cases before with
  | begun =>
      cases stepped
      exact ⟨[], _, rfl, imported_fresh maxCachedPages rowsPerPage small, fun _ => rfl,
        readHeader_fresh maxCachedPages rowsPerPage⟩
  | importing pt left =>
      obtain ⟨done, data, rfl, imported, started, header⟩ := sound
      cases left with
      | nil =>
          obtain ⟨pt', wrote, imported', header'⟩ := imported.writeHeader
          simp only [Migration.step, wrote, Option.some.injEq] at stepped
          subst stepped
          rw [List.append_nil]
          exact ⟨data, imported', header'⟩
      | cons entry left =>
          obtain ⟨rowId, row⟩ := entry
          simp only [Migration.step] at stepped
          split at stepped
          · rename_i pt' put
            cases stepped
            obtain ⟨numbered, fits⟩ := imported.put_iff lists put
            obtain ⟨pt'', data', put', imported', -, header'⟩ :=
              imported.put started header lists decodes numbered fits
            cases put.symm.trans put'
            have more : done ++ [(rowId, row)] ≠ [] :=
              List.append_ne_nil_of_right_ne_nil _ nofun
            refine ⟨done ++ [(rowId, row)], data', ?_, imported', fun none => absurd none more, ?_⟩
            · rw [List.append_assoc, List.singleton_append]
            · rw [header', importHeader, if_neg more]
          · cases stepped
  | imported pt =>
      obtain ⟨data, imported, -⟩ := sound
      obtain ⟨pt', wrote, imported', header'⟩ := imported.writeHeader
      simp only [Migration.step, PageTable.flushAll, wrote, Option.some.injEq] at stepped
      subst stepped
      exact ⟨data, imported', header'⟩
  | flushed pt =>
      cases stepped
      exact sound
  | finished pt => cases stepped

theorem Migration.Reached.sound (small : legacy.nextId < 2 ^ 64)
    (lists : ListsRows legacy rowsPerPage order) (decodes : DecodesRows codec legacy)
    {m : Migration} (reached : Reached codec maxCachedPages rowsPerPage legacy order m) :
    m.Sound codec rowsPerPage legacy order := by
  induction reached with
  | begun => exact trivial
  | step _ stepped ih => exact ih.step small lists decodes stepped

/-- **A crash in the middle of a migration loses rows exactly when it comes
behind the creation of the `.pages` file and before the last row was put**, or,
for a table without rows, before the header was written. -/
theorem migration_survives_crash_iff (codec : PageCodec) (maxCachedPages rowsPerPage : Nat)
    (cached : 0 < maxCachedPages) (image : FileImage TableData) (order again : List (Nat × Row))
    (small : (StorageEngine.readTableFile image).nextId < 2 ^ 64)
    (lists : ListsRows (StorageEngine.readTableFile image) rowsPerPage order)
    (lists' : ListsRows (StorageEngine.readTableFile image) rowsPerPage again)
    (decodes : DecodesRows codec (StorageEngine.readTableFile image)) (m : Migration)
    (reached : m.Reached codec maxCachedPages rowsPerPage (StorageEngine.readTableFile image)
      order) :
    Restores codec (StorageEngine.readTableFile image)
        (loadTable codec maxCachedPages rowsPerPage again (m.files image)) ↔
      m.Safe codec rowsPerPage (StorageEngine.readTableFile image) order again := by
  have whole (pt : PageTable) (data : PagedRows) (dat : Option (FileImage TableData))
      (imported : Imported codec rowsPerPage (StorageEngine.readTableFile image) pt data order)
      (header : PageTable.readHeader pt.file = (data.nextId, data.pageCount)) :
      Restores codec (StorageEngine.readTableFile image)
        (loadTable codec maxCachedPages rowsPerPage again { pages := pt.file, dat }) := by
    rw [← List.append_nil order] at lists
    exact (imported.restores_iff lists header again dat).mpr ⟨rfl, imported.nextId⟩
  have sound := reached.sound small lists decodes
  cases m with
  | begun => exact restores_dat_iff cached small lists' decodes
  | importing pt left =>
      obtain ⟨done, data, rfl, imported, started, header⟩ := sound
      by_cases begun : done = []
      · have written : PageTable.readHeader pt.file = (0, data.pageCount) := by
          rw [header, importHeader, if_pos begun, started begun]
        refine (imported.restores_iff lists written again (some image)).trans
          (and_congr_right fun none => ?_)
        rw [begun, none]
        exact ⟨fun zero => .inr zero.symm, fun either => (either.resolve_left (· rfl)).symm⟩
      · rw [importHeader, if_neg begun] at header
        have some : done ++ left ≠ [] := List.append_ne_nil_of_left_ne_nil begun _
        exact (imported.restores_iff lists header again _).trans
          (and_congr_right fun _ => iff_of_true imported.nextId (.inl some))
  | imported pt =>
      obtain ⟨data, imported, header⟩ := sound
      exact iff_of_true (whole pt data _ imported header) trivial
  | flushed pt =>
      obtain ⟨data, imported, header⟩ := sound
      exact iff_of_true (whole pt data _ imported header) trivial
  | finished pt =>
      obtain ⟨data, imported, header⟩ := sound
      exact iff_of_true (whole pt data _ imported header) trivial

/-- A load that gives the table has come to the flush. -/
theorem Restores.reached {image : FileImage TableData} (cached : 0 < maxCachedPages)
    (restores : Restores codec (StorageEngine.readTableFile image)
      (loadTable codec maxCachedPages rowsPerPage order (Migration.begun.files image))) :
    ∃ pt, (Migration.flushed pt).Reached codec maxCachedPages rowsPerPage
      (StorageEngine.readTableFile image) order := by
  obtain ⟨pt', ends⟩ : ∃ pt', Migration.begun.outcome codec maxCachedPages rowsPerPage
      (StorageEngine.readTableFile image) order = .ok () pt' := by
    obtain ⟨pt, loaded, -⟩ := restores
    cases ran : Migration.begun.outcome codec maxCachedPages rowsPerPage
        (StorageEngine.readTableFile image) order with
    | ok _ pt' => exact ⟨pt', rfl⟩
    | error e pt' =>
        simp only [Migration.outcome] at ran
        simp only [Migration.files, MoodengSQL.loadTable, if_pos cached, ran] at loaded
        cases loaded
  generalize StorageEngine.readTableFile image = legacy at ends ⊢
  have rows : ∀ (left : List (Nat × Row)) (pt : PageTable),
      (Migration.importing pt left).Reached codec maxCachedPages rowsPerPage legacy order →
      (Migration.importing pt left).outcome codec maxCachedPages rowsPerPage legacy order =
        .ok () pt' →
      ∃ pt, (Migration.flushed pt).Reached codec maxCachedPages rowsPerPage legacy order := by
    intro left
    induction left with
    | nil =>
        intro pt reached ends
        obtain ⟨_, headed, wrote, flushed⟩ := bind_eq_ok.mp ends
        have imported : (Migration.imported headed).Reached codec maxCachedPages rowsPerPage
            legacy order := by
          refine .step reached ?_
          have wrote : PageTable.writeHeader pt = .ok _ headed := wrote
          simp only [Migration.step, wrote]
        refine ⟨pt', .step imported ?_⟩
        simp only [Migration.step, flushed]
    | cons entry left ih =>
        intro pt reached ends
        obtain ⟨rowId, row⟩ := entry
        cases put : PageTable.putRow codec rowId row pt with
        | ok _ next =>
            have stepped : (Migration.importing pt ((rowId, row) :: left)).step codec
                maxCachedPages rowsPerPage legacy order = some (.importing next left) := by
              simp only [Migration.step, put]
            exact ih next (.step reached stepped) ((Migration.outcome_step stepped).trans ends)
        | error e next =>
            simp only [Migration.outcome, PageTable.importEach, bind, EStateM.bind, put] at ends
            cases ends
  exact rows order _ (.step .begun rfl) ends

/-- A table with one row, saved in a `.dat` file. -/
private def oneRow : TableData := (TableData.empty.insert (Row.new [.bool true])).2

omit [Runtime] in
private theorem listsRows_oneRow : ListsRows oneRow 16 [(1, Row.new [.bool true])] where
  perm := .refl _
  page := by decide

omit [Runtime] in
/-- A crash behind the creation of the `.pages` file. The next load opens the
empty file and has no row, with the `.dat` file beside it. -/
theorem rows_lost_behind_creation :
    let order := [(1, Row.new [.bool true])]
    let created := { PageTable.open none 4 16 with nextId := oneRow.nextId }
    @Migration.Reached Runtime.reference .flags 4 16 oneRow order (.importing created order) ∧
      ¬ @Restores Runtime.reference .flags oneRow (@loadTable Runtime.reference .flags 4 16 order
        ((Migration.importing created order).files (.written oneRow))) := by
  let _ := Runtime.reference
  intro order created
  have fresh : Imported .flags 16 oneRow created _ [] := imported_fresh 4 16 (by decide)
  refine ⟨.step .begun rfl, fun restores => ?_⟩
  have done := (fresh.restores_iff listsRows_oneRow (readHeader_fresh 4 16) order
    (some (.written oneRow))).mp restores
  cases done.1

/-- A table with two rows. -/
private def twoRows : TableData := (oneRow.insert (Row.new [.null])).2

/-- Its rows. -/
private def bothRows : List (Nat × Row) := [(1, Row.new [.bool true]), (2, Row.new [.null])]

omit [Runtime] in
private theorem listsRows_twoRows : ListsRows twoRows 16 bothRows where
  perm := by decide
  page := by decide

omit [Runtime] in
private theorem decodesRows_twoRows : @DecodesRows Runtime.reference .flags twoRows := by
  let _ := Runtime.reference
  intro body legacy
  have listed (rowId : Nat) (row : Row) (present : body[rowId]? = some row) :
      (rowId, row) = (1, Row.new [.bool true]) ∨ (rowId, row) = (2, Row.new [.null]) := by
    simpa [bothRows] using
      (listsRows_twoRows.mem_iff rowId row).mpr (legacy rowId row present)
  -- the body is told by its two entries
  have whole (other : PageBody) (first : body[1]? = other[1]?) (second : body[2]? = other[2]?)
      (only : ∀ rowId, rowId ≠ 1 → rowId ≠ 2 → other[rowId]? = none) : body = other := by
    apply ExtTreeMap.ext_getElem?
    intro rowId
    by_cases one : rowId = 1
    · rw [one, first]
    by_cases two : rowId = 2
    · rw [two, second]
    rw [only rowId one two]
    cases present : body[rowId]? with
    | none => rfl
    | some row =>
        rcases listed rowId row present with same | same
        · exact absurd (congrArg Prod.fst same) one
        · exact absurd (congrArg Prod.fst same) two
  cases first : body[1]? with
  | none =>
      cases second : body[2]? with
      | none =>
          rw [whole ∅ (by simp [first]) (by simp [second]) fun _ _ _ => by simp]
          decide +kernel
      | some row =>
          obtain rfl : row = Row.new [.null] := by simpa using listed 2 row second
          rw [whole ((∅ : PageBody).insert 2 (Row.new [.null])) (by simp [first])
            (by simp [second]) fun rowId _ two => by simp [Ne.symm two]]
          decide +kernel
  | some row =>
      obtain rfl : row = Row.new [.bool true] := by simpa using listed 1 row first
      cases second : body[2]? with
      | none =>
          rw [whole ((∅ : PageBody).insert 1 (Row.new [.bool true])) (by simp [first])
            (by simp [second]) fun rowId one _ => by simp [Ne.symm one]]
          decide +kernel
      | some row =>
          obtain rfl : row = Row.new [.null] := by simpa using listed 2 row second
          rw [whole (((∅ : PageBody).insert 1 (Row.new [.bool true])).insert 2 (Row.new [.null]))
            (by rw [first]; rfl) (by rw [second]; rfl)
            fun rowId one two => by simp [Ne.symm one, Ne.symm two]]
          decide +kernel

omit [Runtime] in
/-- A crash before the `.pages` file of two rows is created, and one behind its flush. -/
theorem migration_survives_crash_iff_begun :
    @Restores Runtime.reference .flags twoRows (@loadTable Runtime.reference .flags 4 16 bothRows
        { pages := none, dat := some (.written twoRows) }) ∧
      ∃ pt, @Migration.Reached Runtime.reference .flags 4 16 twoRows bothRows (.flushed pt) ∧
        @Restores Runtime.reference .flags twoRows (@loadTable Runtime.reference .flags 4 16
          bothRows { pages := pt.file, dat := some (.written twoRows) }) := by
  let _ := Runtime.reference
  have fits : ImportFits .flags 16 (fun _ => ∅) bothRows :=
    ⟨by decide, by decide +kernel, by decide, by decide +kernel, trivial⟩
  have safe (m : Migration) (reached : m.Reached .flags 4 16 twoRows bothRows) :=
    migration_survives_crash_iff .flags 4 16 (by decide) (.written twoRows) _ _ (by decide)
      listsRows_twoRows listsRows_twoRows decodesRows_twoRows m reached
  have begun := (safe .begun .begun).mpr fits
  obtain ⟨pt, flushed⟩ := begun.reached (by decide)
  exact ⟨begun, pt, flushed, (safe _ flushed).mpr trivial⟩

end Crashes

end MoodengSQL
