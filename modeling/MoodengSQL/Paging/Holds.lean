import MoodengSQL.Paging.Pages

/-!
# What a page table holds

The rows of a page table live in its pages, each in the page its id belongs to.
Each call keeps the pages and the rows in agreement, and only a store of a page
changes the rows.
-/

namespace MoodengSQL

open Foundation Foundation.Effect Std

variable [Runtime] (codec : PageCodec)

/-- The page table holds the rows. -/
structure Holds (pt : PageTable) (rows : Map Nat Row) : Prop where
  rowsPerPage : 0 < pt.rowsPerPage
  mapped : pt.mapped = true
  slots : ∃ bytes, pt.file = some bytes ∧
    bytes.length = PageTable.fileSizeForPages pt.pageCount ∧
    ∀ page < max pt.pageCount 1,
      SlotHolds codec (slotOf bytes page) (pageRows pt.rowsPerPage rows page)
  cache : ∀ page body, pt.cache.pages[page]? = some body →
    body = pageRows pt.rowsPerPage rows page
  ids : ∀ id ∈ rows, 1 ≤ id ∧ pageOf pt.rowsPerPage id < pt.pageCount

/-- Two states of a table with the same settings and the same next id. -/
def SameIds (pt pt' : PageTable) : Prop :=
  pt'.rowsPerPage = pt.rowsPerPage ∧ pt'.nextId = pt.nextId

omit [Runtime] in
theorem SameIds.trans {first second third : PageTable} (before : SameIds first second)
    (after : SameIds second third) : SameIds first third :=
  ⟨after.1.trans before.1, after.2.trans before.2⟩

variable {codec} {pt : PageTable} {rows : Map Nat Row}

/-- The rows of a table, page by page. -/
theorem Holds.pages (holds : Holds codec pt rows) :
    HoldsPages codec pt (pageRows pt.rowsPerPage rows) where
  mapped := holds.mapped
  slots := holds.slots
  cache := holds.cache
  unused page high := by
    apply pageRows_eq_empty
    rintro id member rfl
    exact Nat.not_lt.mpr high (holds.ids id member).2

/-- Pages that have the rows of a table. -/
theorem HoldsPages.holds {rowsPerPage : Nat} (held : HoldsPages codec pt (pageRows rowsPerPage rows))
    (same : pt.rowsPerPage = rowsPerPage) (positive : 0 < rowsPerPage)
    (ids : ∀ id ∈ rows, 1 ≤ id ∧ pageOf rowsPerPage id < pt.pageCount) : Holds codec pt rows := by
  subst same
  exact ⟨positive, held.mapped, held.slots, held.cache, ids⟩

/-- **Loading a page** gives its rows, from the cache or from its slot. -/
theorem Holds.loadPage (holds : Holds codec pt rows) {page : Nat} (low : page < pt.pageCount) :
    ∃ cache, PageTable.loadPage codec page pt =
        .ok (pageRows pt.rowsPerPage rows page) { pt with cache } ∧
      Holds codec { pt with cache } rows := by
  obtain ⟨cache, loaded, held⟩ := holds.pages.loadPage low
  exact ⟨cache, loaded, held.holds rfl holds.rowsPerPage holds.ids⟩

/-- **Storing a page** that fits replaces the rows of the page. -/
theorem Holds.storePage {rows' : Map Nat Row} {page : Nat} {body : PageBody}
    (holds : Holds codec pt rows) (low : page < pt.pageCount) (fits : Fits codec body)
    (decodes : Decodes codec body) (target : pageRows pt.rowsPerPage rows' page = body)
    (others : ∀ other, page ≠ other →
      pageRows pt.rowsPerPage rows' other = pageRows pt.rowsPerPage rows other)
    (ids : ∀ id ∈ rows', 1 ≤ id ∧ pageOf pt.rowsPerPage id < pt.pageCount) :
    ∃ file cache, PageTable.storePage codec page body pt = .ok () { pt with file, cache } ∧
      Holds codec { pt with file, cache } rows' := by
  obtain ⟨file, cache, stored, held, -⟩ := holds.pages.storePage low fits decodes
  refine ⟨file, cache, stored, HoldsPages.holds ?_ rfl holds.rowsPerPage ids⟩
  have replaced : Function.update (pageRows pt.rowsPerPage rows) page body =
      pageRows pt.rowsPerPage rows' := by
    funext other
    by_cases same : other = page
    · subst same
      rw [Function.update_self, target]
    · rw [Function.update_of_ne same, others other (Ne.symm same)]
  rw [← replaced]
  exact held

/-- A page that does not fit is refused before anything changes. -/
theorem Holds.storePage_overflow {page : Nat} {body : PageBody} (holds : Holds codec pt rows)
    (low : page < pt.pageCount) (overflows : ¬ Fits codec body) :
    PageTable.storePage codec page body pt = .error (.error (.storage "page overflow")) pt :=
  holds.pages.storePage_overflow low overflows

/-- Writing the header leaves the rows alone. -/
theorem Holds.writeHeader (holds : Holds codec pt rows) :
    ∃ file, PageTable.writeHeader pt = .ok () { pt with file } ∧
      Holds codec { pt with file } rows := by
  obtain ⟨file, wrote, held, -⟩ := holds.pages.writeHeader
  exact ⟨file, wrote, held.holds rfl holds.rowsPerPage holds.ids⟩

/-- **Growing the table** to a page leaves the rows alone. -/
theorem Holds.growIfNeeded (holds : Holds codec pt rows) {page : Nat} (bound : page < 2 ^ 32 - 1) :
    ∃ pt', PageTable.growIfNeeded page pt = .ok () pt' ∧ Holds codec pt' rows ∧
      page < pt'.pageCount ∧ SameIds pt pt' := by
  obtain ⟨pt', grew, held, grown⟩ := holds.pages.growIfNeeded bound
  have more := grown.pageCount
  refine ⟨pt', grew, held.holds grown.rowsPerPage holds.rowsPerPage fun id member => ?_, by omega,
    grown.rowsPerPage, grown.nextId⟩
  obtain ⟨one, low⟩ := holds.ids id member
  exact ⟨one, by omega⟩

end MoodengSQL
