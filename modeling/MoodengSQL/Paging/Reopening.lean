import MoodengSQL.Paging.Runs

/-!
# Opening a paged table again

A file that is opened again has the pages that the table had, on the page
numbers they had. The next id is the one of the header, which a table may have
outgrown, and the page of a row is computed from the settings of the day.
-/

namespace MoodengSQL

open Foundation Foundation.Effect Std

variable [Runtime] {codec : PageCodec} {rowsPerPage : Nat} {pt : PageTable} {data : PagedRows}

section Header

/-- The header has the current next id behind the operations: one of them had it
written, and none that raised the next id since then failed to. -/
def Recorded (codec : PageCodec) (rowsPerPage : Nat) :
    PagedRows → Prop → List BackendOp → Prop
  | _, recorded, [] => recorded
  | data, recorded, op :: rest =>
      Recorded codec rowsPerPage (data.step codec rowsPerPage op)
        (data.WritesHeader codec rowsPerPage op ∨ recorded ∧ ¬ data.RaisesNextId op) rest

/-- The header of a file against its table: it has the number of pages, and the
next id if that is recorded, or else a lower one. -/
structure HeaderOf (pt : PageTable) (data : PagedRows) (recorded : Prop) : Prop where
  pageCount : (PageTable.readHeader pt.file).2 = data.pageCount
  current : recorded → (PageTable.readHeader pt.file).1 = data.nextId
  stale : ¬ recorded → (PageTable.readHeader pt.file).1 < data.nextId

omit [Runtime] in
theorem HeaderOf.nextId_le {recorded : Prop} (header : HeaderOf pt data recorded) :
    (PageTable.readHeader pt.file).1 ≤ data.nextId := by
  by_cases current : recorded
  · exact Nat.le_of_eq (header.current current)
  · exact Nat.le_of_lt (header.stale current)

omit [Runtime] in
/-- The header of a new file is behind its table. -/
theorem headerOf_fresh (maxPages rowsPerPage : Nat) :
    HeaderOf (.open none maxPages rowsPerPage) .fresh False := by
  have header := readHeader_fresh maxPages rowsPerPage
  refine ⟨?_, False.elim, fun _ => ?_⟩
  · rw [header]
    rfl
  · rw [header]
    exact Nat.zero_lt_one

theorem HeaderOf.step {recorded : Prop} {op : BackendOp} {pt' : PageTable}
    (header : HeaderOf pt data recorded) (stands : Stands codec rowsPerPage pt data)
    (stepped : StepsTo codec rowsPerPage pt pt' (data.step codec rowsPerPage op)
      (data.WritesHeader codec rowsPerPage op)) :
    HeaderOf pt' (data.step codec rowsPerPage op)
      (data.WritesHeader codec rowsPerPage op ∨ recorded ∧ ¬ data.RaisesNextId op) := by
  by_cases writes : data.WritesHeader codec rowsPerPage op
  · have written := stepped.written writes
    exact ⟨by rw [written], fun _ => by rw [written], fun not => absurd (.inl writes) not⟩
  · obtain ⟨same, count⟩ := stepped.kept writes
    have pageCount : (data.step codec rowsPerPage op).pageCount = data.pageCount := by
      rw [← stepped.stands.pageCount, count, stands.pageCount]
    refine ⟨by rw [same, header.pageCount, pageCount], ?_, fun not => ?_⟩
    · rintro (did | ⟨current, kept⟩)
      · exact absurd did writes
      · rw [same, header.current current, PagedRows.nextId_step_of_not_raises kept]
    · rw [same]
      by_cases raises : data.RaisesNextId op
      · exact Nat.lt_of_le_of_lt header.nextId_le (PagedRows.nextId_step_of_raises raises)
      · rw [PagedRows.nextId_step_of_not_raises raises]
        exact header.stale fun current => not (.inr ⟨current, raises⟩)

/-- What the header says behind operations. -/
theorem HeaderOf.after {recorded : Prop} {ops : List BackendOp}
    (header : HeaderOf pt data recorded) (stands : Stands codec rowsPerPage pt data)
    (allows : data.AllowsAll codec rowsPerPage ops) :
    HeaderOf (pt.after codec ops) (data.run codec rowsPerPage ops)
      (Recorded codec rowsPerPage data recorded ops) := by
  induction ops generalizing pt data recorded with
  | nil => exact header
  | cons op rest ih =>
      have stepped := stands.perform allows.1
      exact ih (header.step stands stepped) stepped.stands allows.2

/-- A table opened again stands as the one before, but for the next id. -/
theorem Stands.reopen {recorded : Prop} (stands : Stands codec rowsPerPage pt data)
    (header : HeaderOf pt data recorded) (maxPages rowsPerPage' : Nat) :
    Stands codec rowsPerPage' (.open pt.file maxPages rowsPerPage')
      { data with nextId := (PageTable.readHeader pt.file).1 } := by
  obtain ⟨held, same, nextId, pageCount, -⟩ := stands.holds.reopen
    (header.pageCount.trans stands.pageCount.symm) maxPages rowsPerPage'
  exact ⟨held, same, nextId, pageCount.trans stands.pageCount,
    Nat.lt_of_le_of_lt header.nextId_le stands.nextIdSmall, stands.pageCountSmall⟩

end Header

section Survival

/-- What a call answers, without the state it leaves. -/
def PageTable.answer {α : Type} (m : PageM α) (pt : PageTable) : Except Failure α :=
  match m pt with
  | .ok a _ => .ok a
  | .error e _ => .error e

/-- The table opened again is the table before: it has the next id, the number of
pages and the rows. -/
structure Survives (codec : PageCodec) (pt again : PageTable) : Prop where
  nextId : again.nextId = pt.nextId
  positive : 1 ≤ again.nextId
  pageCount : again.pageCount = pt.pageCount
  get : ∀ rowId, 1 ≤ rowId →
    PageTable.answer (PageTable.get codec rowId) again =
      PageTable.answer (PageTable.get codec rowId) pt

/-- Tables with the same pages and settings answer `get` alike. -/
theorem Stands.get_eq {again : PageTable} {nextId : Nat} (stands : Stands codec rowsPerPage pt data)
    (stands' : Stands codec rowsPerPage again { data with nextId }) (rowId : Nat) :
    PageTable.answer (PageTable.get codec rowId) again =
      PageTable.answer (PageTable.get codec rowId) pt := by
  have holds := stands.holds
  have holds' := stands'.holds
  by_cases numbered : HasPage rowsPerPage rowId
  · obtain ⟨_, got, -⟩ := holds.get (stands.rowsPerPage.symm ▸ numbered)
    obtain ⟨_, got', -⟩ := holds'.get (stands'.rowsPerPage.symm ▸ numbered)
    rw [stands.rowsPerPage] at got
    rw [stands'.rowsPerPage] at got'
    rw [PageTable.answer, PageTable.answer, got, got']
  · obtain ⟨reason, panics⟩ := pageId_panics numbered
    have fails (table : PageTable) (same : table.rowsPerPage = rowsPerPage) :
        PageTable.get codec rowId table = .error (.panic reason) table := by
      unfold PageTable.get
      rw [get_bind, same, bind_eq_error]
      exact .inl (panics table)
    rw [PageTable.answer, PageTable.answer, fails pt stands.rowsPerPage,
      fails again stands'.rowsPerPage]

/-- A row whose page fits is inserted under the next id. -/
theorem Stands.insert (stands : Stands codec rowsPerPage pt data) {row : Row}
    (numbered : HasPage rowsPerPage data.nextId)
    (allows : data.Allows codec rowsPerPage (.insert row))
    (fits : Fits codec (data.withRow rowsPerPage data.nextId row)) :
    PageTable.answer (PageTable.insert codec row) pt = .ok data.nextId := by
  have page := allows.page _ rfl
  have decodes := allows.decodes _ (.inl ⟨_, rfl, rfl⟩) fits
  obtain rfl := stands.rowsPerPage
  rw [← stands.nextId] at *
  have holds : HoldsPages codec { pt with nextId := pt.nextId + 1 } data.pages :=
    ⟨stands.holds.mapped, stands.holds.slots, stands.holds.cache, stands.holds.unused⟩
  obtain ⟨mid, put, held, -⟩ := holds.putRow numbered (Nat.lt_sub_of_add_lt page) fits decodes
  obtain ⟨file, wrote, -, -⟩ := held.writeHeader
  have inserted : PageTable.insert codec row pt = .ok pt.nextId { mid with file } := by
    unfold PageTable.insert
    rw [get_bind, modify_bind, bind_of_ok put, bind_of_ok wrote]
    rfl
  rw [PageTable.answer, inserted]

/-- **A page table opened again is the table that was closed exactly when its
header was written since its next id was last raised.** An insert into such a
table returns the id that was next, which no row had. -/
theorem survives_reopening_iff (codec : PageCodec) (maxPages rowsPerPage : Nat)
    (ops : List BackendOp) (allows : PagedRows.fresh.AllowsAll codec rowsPerPage ops) :
    let pt := (PageTable.open none maxPages rowsPerPage).after codec ops
    let again := PageTable.open pt.file maxPages rowsPerPage
    (Survives codec pt again ↔ Recorded codec rowsPerPage .fresh False ops) ∧
      (Survives codec pt again → ∀ row, 0 < rowsPerPage →
        (PagedRows.fresh.run codec rowsPerPage ops).Allows codec rowsPerPage (.insert row) →
        Fits codec ((PagedRows.fresh.run codec rowsPerPage ops).withRow rowsPerPage pt.nextId row) →
        PageTable.answer (PageTable.insert codec row) again = .ok pt.nextId ∧
          PageTable.answer (PageTable.get codec pt.nextId) pt = .ok none) := by
  intro pt again
  have begun : Stands codec rowsPerPage (.open none maxPages rowsPerPage) .fresh :=
    stands_fresh maxPages
  set data := PagedRows.fresh.run codec rowsPerPage ops with ran
  have stands : Stands codec rowsPerPage pt data := begun.after allows
  have header : HeaderOf pt data (Recorded codec rowsPerPage .fresh False ops) :=
    (headerOf_fresh maxPages rowsPerPage).after begun allows
  have stands' := stands.reopen header maxPages rowsPerPage
  have positive : PagedRows.fresh.nextId ≤ data.nextId := PagedRows.nextId_le_run ops
  constructor
  · constructor
    · intro survives
      by_contra unrecorded
      have nextId := survives.nextId
      rw [stands'.nextId, stands.nextId] at nextId
      exact Nat.ne_of_lt (header.stale unrecorded) nextId
    · intro recorded
      have nextId : again.nextId = data.nextId := stands'.nextId.trans (header.current recorded)
      exact ⟨nextId.trans stands.nextId.symm, nextId ▸ positive,
        stands'.pageCount.trans stands.pageCount.symm, fun rowId _ => stands.get_eq stands' rowId⟩
  · intro survives row rows admitted fits
    have numbered : HasPage rowsPerPage data.nextId := hasPage_of_pos positive rows
    have same : (PageTable.readHeader pt.file).1 = data.nextId :=
      stands'.nextId.symm.trans (survives.nextId.trans stands.nextId)
    rw [same] at stands'
    rw [stands.nextId] at fits ⊢
    have bounded : data.Bounded := PagedRows.bounded_fresh.run ops
    have absent : (data.pages (pageNumber rowsPerPage data.nextId))[data.nextId]? = none :=
      ExtTreeMap.getElem?_eq_none fun member =>
        Nat.lt_irrefl _ (bounded _ data.nextId member)
    obtain ⟨_, got, -⟩ := stands.holds.get (stands.rowsPerPage.symm ▸ numbered)
    rw [stands.rowsPerPage, absent] at got
    refine ⟨stands'.insert numbered admitted fits, ?_⟩
    rw [PageTable.answer, got]

/-- A table with no insert is opened with next id zero. -/
theorem nextId_reopen_fresh (codec : PageCodec) (maxPages rowsPerPage : Nat) :
    (PageTable.open ((PageTable.open none maxPages rowsPerPage).after codec []).file maxPages
      rowsPerPage).nextId = 0 := by
  have stands : Stands codec rowsPerPage (.open none maxPages rowsPerPage) .fresh :=
    stands_fresh maxPages
  have reopened := (stands.reopen (headerOf_fresh maxPages rowsPerPage) maxPages rowsPerPage).nextId
  rw [PageTable.after_nil, reopened, readHeader_fresh]

/-- A table opened with next id zero has lost its ids, and no insert gets past `page_id`. -/
private theorem lost_of_nextId_zero (checks : Runtime.overflowChecks = true) {pt again : PageTable}
    (next : pt.nextId = 1) (zero : again.nextId = 0) :
    ¬ Survives codec pt again ∧ pt.nextId = 1 ∧ again.nextId = 0 ∧
      PageTable.answer (PageTable.insert codec (Row.new [.bool true])) again =
        .error (.panic "attempt to subtract with overflow") := by
  have failed : PageTable.putRow codec 0 (Row.new [.bool true]) { again with nextId := 1 } =
      .error (.panic "attempt to subtract with overflow") { again with nextId := 1 } := by
    unfold PageTable.putRow
    rw [get_bind, bind_eq_error]
    exact .inl (pageId_zero checks _ _)
  refine ⟨fun survives => ?_, next, zero, ?_⟩
  · have positive := survives.positive
    rw [zero] at positive
    exact Nat.not_succ_le_zero 0 positive
  · have inserted : PageTable.insert codec (Row.new [.bool true]) again =
        .error (.panic "attempt to subtract with overflow") { again with nextId := 1 } := by
      unfold PageTable.insert
      rw [get_bind, modify_bind, zero, bind_eq_error]
      exact .inl failed
    rw [PageTable.answer, inserted]

omit [Runtime] in
/-- A table that was closed before its first insert has a header of zeros. It is
opened with next id zero, from which `page_id` cannot subtract. -/
theorem new_table_reopens_without_ids :
    let checked : Runtime := { Runtime.reference with overflowChecks := true }
    let pt := @PageTable.after checked .flags [] (.open none 4 16)
    let again := PageTable.open pt.file 4 16
    ¬ @Survives checked .flags pt again ∧ pt.nextId = 1 ∧ again.nextId = 0 ∧
      @PageTable.answer Nat (@PageTable.insert checked .flags (Row.new [.bool true])) again =
        .error (.panic "attempt to subtract with overflow") :=
  let checked : Runtime := { Runtime.reference with overflowChecks := true }
  @lost_of_nextId_zero checked .flags rfl _ _ rfl (@nextId_reopen_fresh checked .flags 4 16)

/-- The operation puts a row whose page is decoded back. -/
theorem allows_insert {row : Row} (nextId : data.nextId + 1 < 2 ^ 64)
    (page : pageNumber rowsPerPage data.nextId + 1 < 2 ^ 32)
    (decodes : Decodes codec (data.withRow rowsPerPage data.nextId row)) :
    data.Allows codec rowsPerPage (.insert row) := by
  refine ⟨fun put puts => ?_, fun put puts => ?_, fun body stored _ => ?_⟩
  · obtain rfl := Option.mem_some_iff.mp puts
    exact nextId
  · obtain rfl := Option.mem_some_iff.mp puts
    exact page
  · rcases stored with ⟨put, puts, rfl⟩ | ⟨_, _, other, -⟩ | ⟨_, other, -⟩
    · obtain rfl := Option.mem_some_iff.mp puts
      exact decodes
    · cases other
    · cases other

omit [Runtime] in
/-- A table with a row, closed, opened and written again. -/
theorem survives_reopening_iff_row :
    let pt := @PageTable.after Runtime.reference .flags [.insert (Row.new [.bool true])]
      (.open none 4 16)
    let again := PageTable.open pt.file 4 16
    @Survives Runtime.reference .flags pt again ∧
      @PageTable.answer Nat (@PageTable.insert Runtime.reference .flags (Row.new [.null])) again =
        .ok pt.nextId := by
  let _ := Runtime.reference
  intro pt again
  have first : PagedRows.fresh.Allows .flags 16 (.insert (Row.new [.bool true])) :=
    allows_insert (by decide) (by decide) (by decide +kernel)
  have second : (PagedRows.fresh.run .flags 16 [.insert (Row.new [.bool true])]).Allows .flags 16
      (.insert (Row.new [.null])) :=
    allows_insert (by decide +kernel) (by decide +kernel) (by decide +kernel)
  have allows : PagedRows.fresh.AllowsAll .flags 16 [.insert (Row.new [.bool true])] :=
    ⟨first, trivial⟩
  have stands : Stands .flags 16 pt
      (PagedRows.fresh.run .flags 16 [.insert (Row.new [.bool true])]) :=
    (stands_fresh 4).after allows
  have raised : (PagedRows.fresh.run .flags 16 [.insert (Row.new [.bool true])]).nextId = 2 := by
    decide +kernel
  have nextId : pt.nextId = 2 := stands.nextId.trans raised
  have writes : PagedRows.fresh.WritesHeader .flags 16 (.insert (Row.new [.bool true])) :=
    ⟨_, rfl, by decide, .inl (Nat.zero_le _)⟩
  have fits : Fits .flags ((PagedRows.fresh.run .flags 16 [.insert (Row.new [.bool true])]).withRow
      16 pt.nextId (Row.new [.null])) := by
    rw [nextId]
    decide +kernel
  have reopening := survives_reopening_iff .flags 4 16 _ allows
  have survives : Survives .flags pt again := reopening.1.mpr (Or.inl writes)
  exact ⟨survives, (reopening.2 survives _ (by decide) second fits).1⟩

end Survival

section Agreement

/-- `get` finds the rows that `scan` shows. -/
def Agrees (codec : PageCodec) (pt : PageTable) : Prop :=
  ∀ rowId row, PageTable.answer (PageTable.get codec rowId) pt = .ok (some row) ↔
    ∃ rows, PageTable.answer (PageTable.scan codec) pt = .ok rows ∧ (rowId, row) ∈ rows

/-- What `scan` shows: the rows of all pages. -/
theorem Stands.mem_scan (stands : Stands codec rowsPerPage pt data) (rowId : Nat) (row : Row) :
    (∃ rows, PageTable.answer (PageTable.scan codec) pt = .ok rows ∧ (rowId, row) ∈ rows) ↔
      ∃ page, (data.pages page)[rowId]? = some row := by
  obtain ⟨_, scanned, -⟩ := stands.holds.scan
  rw [PageTable.answer, scanned]
  simp only [Except.ok.injEq, exists_eq_left', PageTable.sortById,
    (List.perm_insertionSort _ _).mem_iff, mem_entriesOf, List.mem_range]
  constructor
  · rintro ⟨page, -, found⟩
    exact ⟨page, found⟩
  · rintro ⟨page, found⟩
    refine ⟨page, ?_, found⟩
    by_contra high
    rw [stands.holds.unused page (Nat.not_lt.mp high), ExtTreeMap.getElem?_empty] at found
    cases found

/-- What `get` finds: the rows of one page. -/
theorem Stands.get_some (stands : Stands codec rowsPerPage pt data) (rowId : Nat) (row : Row) :
    PageTable.answer (PageTable.get codec rowId) pt = .ok (some row) ↔
      HasPage rowsPerPage rowId ∧
        (data.pages (pageNumber rowsPerPage rowId))[rowId]? = some row := by
  obtain rfl := stands.rowsPerPage
  by_cases numbered : HasPage pt.rowsPerPage rowId
  · obtain ⟨_, got, -⟩ := stands.holds.get numbered
    rw [PageTable.answer, got, Except.ok.injEq]
    exact (and_iff_right numbered).symm
  · obtain ⟨reason, panics⟩ := pageId_panics numbered
    have failed : PageTable.get codec rowId pt = .error (.panic reason) pt := by
      unfold PageTable.get
      rw [get_bind, bind_eq_error]
      exact .inl (panics pt)
    rw [PageTable.answer, failed]
    exact iff_of_false nofun fun both => numbered both.1

/-- **Lookups and scans agree exactly on rows that lie on the pages computed for
them**, for rows that lie on one page each. -/
theorem Stands.agrees_iff_placed (stands : Stands codec rowsPerPage pt data)
    (once : ∀ page other rowId, rowId ∈ data.pages page → rowId ∈ data.pages other →
      page = other) :
    Agrees codec pt ↔ data.Placed rowsPerPage := by
  unfold Agrees
  simp only [stands.mem_scan, stands.get_some]
  constructor
  · intro agrees page rowId member
    obtain ⟨row, found⟩ : ∃ row, (data.pages page)[rowId]? = some row :=
      ⟨_, ExtTreeMap.getElem?_eq_some_getElem member⟩
    obtain ⟨numbered, got⟩ := (agrees rowId row).mpr ⟨page, found⟩
    exact ⟨numbered, once _ page rowId (Map.mem_of_getElem?_eq_some got) member⟩
  · intro placed rowId row
    constructor
    · exact fun ⟨_, got⟩ => ⟨_, got⟩
    · rintro ⟨page, found⟩
      obtain ⟨numbered, rfl⟩ := placed page rowId (Map.mem_of_getElem?_eq_some found)
      exact ⟨numbered, found⟩

/-- A row away from the page computed for it is shown by scans and hidden from
lookups. -/
theorem Stands.misplaced {nextId page rowId : Nat} {row : Row}
    (stands : Stands codec rowsPerPage pt { data with nextId })
    (found : (data.pages page)[rowId]? = some row)
    (absent : (data.pages (pageNumber rowsPerPage rowId))[rowId]? = none) :
    ¬ Agrees codec pt ∧
      (∃ rows, PageTable.answer (PageTable.scan codec) pt = .ok rows ∧ (rowId, row) ∈ rows) ∧
      ∀ row, PageTable.answer (PageTable.get codec rowId) pt ≠ .ok (some row) := by
  have shown := (stands.mem_scan rowId row).mpr ⟨page, found⟩
  have hidden (row : Row) : PageTable.answer (PageTable.get codec rowId) pt ≠ .ok (some row) := by
    intro got
    cases absent.symm.trans ((stands.get_some rowId row).mp got).2
  exact ⟨fun agrees => hidden row ((agrees rowId row).mpr shown), shown, hidden⟩

theorem PagedRows.Placed.once (placed : data.Placed rowsPerPage) (page other rowId : Nat)
    (here : rowId ∈ data.pages page) (there : rowId ∈ data.pages other) : page = other :=
  (placed page rowId here).2.symm.trans (placed other rowId there).2

/-- **Point lookups and scans of a table that is opened under another number of
rows per page agree, whatever is done to it, exactly when every row of it falls
on the same page under both.** -/
theorem lookups_agree_reopened_iff (codec : PageCodec) (maxPages written maxPages' reopened : Nat)
    (positive : 1 ≤ reopened) (ops : List BackendOp)
    (allows : PagedRows.fresh.AllowsAll codec written ops) :
    let data := PagedRows.fresh.run codec written ops
    let pt := (PageTable.open none maxPages written).after codec ops
    let again := PageTable.open pt.file maxPages' reopened
    (∀ later, PagedRows.AllowsAll codec reopened { data with nextId := again.nextId } later →
      Agrees codec (again.after codec later)) ↔
      ∀ page, ∀ rowId ∈ data.pages page, pageNumber reopened rowId = pageNumber written rowId := by
  intro data pt again
  have begun : Stands codec written (.open none maxPages written) .fresh := stands_fresh maxPages
  have stands : Stands codec written pt data := begun.after allows
  have header : HeaderOf pt data (Recorded codec written .fresh False ops) :=
    (headerOf_fresh maxPages written).after begun allows
  have stands' := stands.reopen header maxPages' reopened
  have nextId : again.nextId = (PageTable.readHeader pt.file).1 := stands'.nextId
  rw [← nextId] at stands'
  have placed : data.Placed written := PagedRows.placed_fresh.run ops
  constructor
  · intro agree page rowId member
    have now := (stands'.agrees_iff_placed placed.once).mp (agree [] trivial)
    exact (now page rowId member).2.trans (placed page rowId member).2.symm
  · intro same later allowed
    have replaced : PagedRows.Placed reopened { data with nextId := again.nextId } := by
      intro page rowId member
      obtain ⟨numbered, here⟩ := placed page rowId member
      exact ⟨⟨numbered.1, Nat.ne_of_gt positive⟩, (same page rowId member).trans here⟩
    have kept : (PagedRows.run codec reopened _ later).Placed reopened := replaced.run later
    exact ((stands'.after allowed).agrees_iff_placed kept.once).mpr kept

omit [Runtime] in
/-- Two rows written on pages of one row, then opened with sixteen rows to a
page: the scan shows the second row, and no lookup finds it. -/
theorem second_row_lost_to_lookups :
    let rows := [BackendOp.insert (Row.new [.bool true]), .insert (Row.new [.null])]
    let pt := @PageTable.after Runtime.reference .flags rows (.open none 4 1)
    let again := PageTable.open pt.file 4 16
    ¬ @Agrees Runtime.reference .flags again ∧
      (∃ shown, @PageTable.answer _ (@PageTable.scan Runtime.reference .flags) again = .ok shown ∧
        (2, Row.new [.null]) ∈ shown) ∧
      ∀ row, @PageTable.answer _ (@PageTable.get Runtime.reference .flags 2) again ≠
        .ok (some row) := by
  let _ := Runtime.reference
  intro rows pt again
  have allows : PagedRows.fresh.AllowsAll .flags 1 rows :=
    ⟨allows_insert (by decide) (by decide) (by decide +kernel),
      allows_insert (by decide +kernel) (by decide +kernel) (by decide +kernel), trivial⟩
  have begun : Stands .flags 1 (.open none 4 1) .fresh := stands_fresh 4
  have stands := begun.after allows
  have again' := stands.reopen ((headerOf_fresh 4 1).after begun allows) 4 16
  have second : ((PagedRows.fresh.run .flags 1 rows).pages 1)[2]? = some (Row.new [.null]) := by
    decide +kernel
  have absent : ((PagedRows.fresh.run .flags 1 rows).pages (pageNumber 16 2))[2]? = none := by
    decide +kernel
  exact again'.misplaced second absent

omit [Runtime] in
/-- Two rows, which share the first page under both settings. -/
theorem lookups_agree_reopened_iff_first_row :
    let rows := [BackendOp.insert (Row.new [.bool true]), .insert (Row.new [.null])]
    let pt := @PageTable.after Runtime.reference .flags rows (.open none 4 DEFAULT_ROWS_PER_PAGE)
    @Agrees Runtime.reference .flags (PageTable.open pt.file 4 8) := by
  let _ := Runtime.reference
  intro rows pt
  have allows : PagedRows.fresh.AllowsAll .flags DEFAULT_ROWS_PER_PAGE rows :=
    ⟨allows_insert (by decide) (by decide) (by decide +kernel),
      allows_insert (by decide +kernel) (by decide +kernel) (by decide +kernel), trivial⟩
  have nextId : (PagedRows.fresh.run .flags DEFAULT_ROWS_PER_PAGE rows).nextId = 3 := by
    decide +kernel
  have alike (page rowId : Nat)
      (member : rowId ∈ (PagedRows.fresh.run .flags DEFAULT_ROWS_PER_PAGE rows).pages page) :
      pageNumber 8 rowId = pageNumber DEFAULT_ROWS_PER_PAGE rowId := by
    have low := PagedRows.bounded_fresh.run rows page rowId member
    rw [nextId] at low
    interval_cases rowId <;> decide
  have agree := (lookups_agree_reopened_iff .flags 4 DEFAULT_ROWS_PER_PAGE 4 8 (by decide) rows
    allows).mpr alike []
  rw [PageTable.after_nil] at agree
  exact agree trivial

end Agreement

end MoodengSQL
