import MoodengSQL.Paging.Holds
import MoodengSQL.Paging.Calls

/-!
# Operations on page tables

What each operation of a page table returns and what rows the table holds after
it. A write whose page does not fit its slot is refused, with the rows as they
were.
-/

namespace MoodengSQL

open Foundation Foundation.Effect Std

variable [Runtime] {codec : PageCodec} {pt : PageTable} {rows : Map Nat Row}

/-- Row ids whose pages can be addressed. -/
def Addressable (rowsPerPage rowId : Nat) : Prop :=
  1 ≤ rowId ∧ rowId < 2 ^ 63 ∧ pageOf rowsPerPage rowId < 2 ^ 32 - 1

instance (rowsPerPage rowId : Nat) : Decidable (Addressable rowsPerPage rowId) :=
  inferInstanceAs (Decidable (_ ∧ _ ∧ _))

omit [Runtime] in
theorem pageNumber_eq {rowsPerPage rowId : Nat} (addressable : Addressable rowsPerPage rowId) :
    pageNumber rowsPerPage rowId = pageOf rowsPerPage rowId := by
  obtain ⟨one, small, page⟩ := addressable
  have back : (rowId + (2 ^ 64 - 1)) % 2 ^ 64 = rowId - 1 := by omega
  rw [pageNumber, back]
  exact Nat.mod_eq_of_lt (by rw [← pageOf]; omega)

theorem pageId_ok {rowsPerPage rowId : Nat} (positive : 0 < rowsPerPage)
    (addressable : Addressable rowsPerPage rowId) :
    PageTable.pageId rowId rowsPerPage pt = .ok (pageOf rowsPerPage rowId) pt := by
  rw [← pageNumber_eq addressable]
  exact pageId_of_hasPage (hasPage_of_pos addressable.1 positive)

/-- A call that stores a page: it turns the rows into the new ones if the page
fits, and is refused with the rows as they were if not. -/
def StoresPage (codec : PageCodec) (pt : PageTable) (rows rows' : Map Nat Row) (body : PageBody)
    {α : Type} (m : PageM α) (a : α) : Prop :=
  if Fits codec body then
    ∃ pt', m pt = .ok a pt' ∧ Holds codec pt' rows' ∧ SameIds pt pt'
  else
    ∃ pt', m pt = .error (.error (.storage "page overflow")) pt' ∧ Holds codec pt' rows ∧
      SameIds pt pt'

/-- What goes before a call that stores a page. -/
theorem StoresPage.after {α β : Type} {first : PageM β} {next : β → PageM α} {b : β} {a : α}
    {mid : PageTable} {rows' : Map Nat Row} {body : PageBody} (ran : first pt = .ok b mid)
    (same : SameIds pt mid) (stores : StoresPage codec mid rows rows' body (next b) a) :
    StoresPage codec pt rows rows' body (first >>= next) a := by
  unfold StoresPage at stores ⊢
  split at stores
  · obtain ⟨pt', stored, holds, same'⟩ := stores
    rw [if_pos ‹_›]
    exact ⟨pt', bind_eq_ok.mpr ⟨b, mid, ran, stored⟩, holds, same.trans same'⟩
  · obtain ⟨pt', refused, holds, same'⟩ := stores
    rw [if_neg ‹_›]
    exact ⟨pt', bind_eq_error.mpr (.inr ⟨b, mid, ran, refused⟩), holds, same.trans same'⟩

/-- What goes after a call that stores a page. -/
theorem StoresPage.before {α β : Type} {first : PageM β} {next : β → PageM α} {b : β} {a : α}
    {rows' : Map Nat Row} {body : PageBody}
    (stores : StoresPage codec pt rows rows' body first b)
    (ends : ∀ mid, Holds codec mid rows' → ∃ pt', next b mid = .ok a pt' ∧
      Holds codec pt' rows' ∧ SameIds mid pt') :
    StoresPage codec pt rows rows' body (first >>= next) a := by
  unfold StoresPage at stores ⊢
  split at stores
  · obtain ⟨mid, stored, holds, same⟩ := stores
    obtain ⟨pt', ended, holds', same'⟩ := ends mid holds
    rw [if_pos ‹_›]
    exact ⟨pt', bind_eq_ok.mpr ⟨b, mid, stored, ended⟩, holds', same.trans same'⟩
  · obtain ⟨pt', refused, holds, same⟩ := stores
    rw [if_neg ‹_›]
    exact ⟨pt', bind_eq_error.mpr (.inl refused), holds, same⟩

theorem StoresPage.map {α β : Type} {m : PageM α} {a : α} {rows' : Map Nat Row} {body : PageBody}
    (stores : StoresPage codec pt rows rows' body m a) (f : α → β) :
    StoresPage codec pt rows rows' body (do return f (← m)) (f a) :=
  stores.before fun mid held => ⟨mid, rfl, held, rfl, rfl⟩

theorem Holds.storesPage (holds : Holds codec pt rows) {page : Nat} {rows' : Map Nat Row}
    (low : page < pt.pageCount)
    (decodes : Fits codec (pageRows pt.rowsPerPage rows' page) →
      Decodes codec (pageRows pt.rowsPerPage rows' page))
    (others : ∀ other, page ≠ other →
      pageRows pt.rowsPerPage rows' other = pageRows pt.rowsPerPage rows other)
    (ids : ∀ id ∈ rows', 1 ≤ id ∧ pageOf pt.rowsPerPage id < pt.pageCount) :
    StoresPage codec pt rows rows' (pageRows pt.rowsPerPage rows' page)
      (PageTable.storePage codec page (pageRows pt.rowsPerPage rows' page)) () := by
  unfold StoresPage
  split
  · rename_i fits
    obtain ⟨file, cache, stored, held⟩ :=
      holds.storePage low fits (decodes fits) rfl others ids
    exact ⟨_, stored, held, rfl, rfl⟩
  · rename_i overflows
    exact ⟨pt, holds.storePage_overflow low overflows, holds, rfl, rfl⟩

/-- Putting a row in its page. -/
theorem Holds.putRow (holds : Holds codec pt rows) {rowId : Nat} {row : Row}
    (addressable : Addressable pt.rowsPerPage rowId)
    (decodes : Fits codec (pageRows pt.rowsPerPage (rows.insert rowId row)
        (pageOf pt.rowsPerPage rowId)) →
      Decodes codec (pageRows pt.rowsPerPage (rows.insert rowId row)
        (pageOf pt.rowsPerPage rowId))) :
    StoresPage codec pt rows (rows.insert rowId row)
      (pageRows pt.rowsPerPage (rows.insert rowId row) (pageOf pt.rowsPerPage rowId))
      (PageTable.putRow codec rowId row) () := by
  obtain ⟨grown, grew, held, low, same⟩ := holds.growIfNeeded addressable.2.2
  obtain ⟨cache, loaded, held'⟩ := held.loadPage low
  rw [← same.1] at decodes low loaded ⊢
  have inserted : (pageRows grown.rowsPerPage rows (pageOf grown.rowsPerPage rowId)).insert
      rowId row = pageRows grown.rowsPerPage (rows.insert rowId row)
        (pageOf grown.rowsPerPage rowId) := by
    rw [pageRows_insert, if_pos rfl]
  unfold PageTable.putRow
  refine StoresPage.after (get_eq_ok.mpr ⟨rfl, rfl⟩) ⟨rfl, rfl⟩ ?_
  refine StoresPage.after (pageId_ok holds.rowsPerPage addressable) ⟨rfl, rfl⟩ ?_
  refine StoresPage.after grew same ?_
  rw [← same.1]
  refine StoresPage.after loaded ⟨rfl, rfl⟩ ?_
  rw [inserted]
  refine held'.storesPage low decodes (fun other differ => ?_) fun id member => ?_
  · dsimp only
    rw [pageRows_insert, if_neg differ]
  · rcases ExtTreeMap.mem_insert.mp member with here | before
    · rw [← LawfulEqOrd.eq_of_compare here]
      exact ⟨addressable.1, low⟩
    · exact held'.ids id before

/-- `get` answers with the row. -/
theorem Holds.get (holds : Holds codec pt rows) {rowId : Nat}
    (addressable : Addressable pt.rowsPerPage rowId) :
    ∃ cache, PageTable.get codec rowId pt = .ok rows[rowId]? { pt with cache } ∧
      Holds codec { pt with cache } rows := by
  obtain ⟨cache, got, held⟩ := holds.pages.get (hasPage_of_pos addressable.1 holds.rowsPerPage)
  rw [pageNumber_eq addressable, getElem?_pageRows, if_pos rfl] at got
  exact ⟨cache, got, held.holds rfl holds.rowsPerPage holds.ids⟩

section Scan

/-- The pages of a table have its rows, each once. -/
theorem Holds.pageEntries_perm (holds : Holds codec pt rows) :
    (entriesOf (pageRows pt.rowsPerPage rows) (List.range pt.pageCount)).Perm rows.toList := by
  apply entriesOf_perm
  · have onPage : ∀ page id, id ∈ pageRows pt.rowsPerPage rows page →
        pageOf pt.rowsPerPage id = page := by
      intro page id member
      by_contra elsewhere
      rw [ExtTreeMap.mem_iff_isSome_getElem?, getElem?_pageRows, if_neg elsewhere] at member
      cases member
    exact fun page other id here there => (onPage page id here).symm.trans (onPage other id there)
  · intro id row
    simp only [getElem?_pageRows]
    constructor
    · rintro ⟨page, -, found⟩
      split at found
      · exact found
      · cases found
    · intro found
      exact ⟨_, (holds.ids id (Map.mem_of_getElem?_eq_some found)).2, by rw [if_pos rfl, found]⟩

/-- `scan` answers with the rows by ascending id. -/
theorem Holds.scan (holds : Holds codec pt rows) :
    ∃ cache, PageTable.scan codec pt = .ok rows.toList { pt with cache } ∧
      Holds codec { pt with cache } rows := by
  obtain ⟨cache, scanned, held⟩ := holds.pages.scan
  rw [sortById_of_perm holds.pageEntries_perm] at scanned
  exact ⟨cache, scanned, held.holds rfl holds.rowsPerPage holds.ids⟩

/-- `row_count` answers with the number of rows. -/
theorem Holds.rowCount (holds : Holds codec pt rows) :
    ∃ cache, PageTable.rowCount codec pt = .ok rows.size { pt with cache } ∧
      Holds codec { pt with cache } rows := by
  obtain ⟨cache, counted, held⟩ := holds.pages.rowCount
  rw [holds.pageEntries_perm.length_eq, ExtTreeMap.length_toList] at counted
  exact ⟨cache, counted, held.holds rfl holds.rowsPerPage holds.ids⟩

end Scan

section Writes

variable {rowId : Nat} {row : Row}

/-- Putting a row and writing the header: the end of `insert` and `apply_insert`. -/
theorem Holds.putRowAndHeader {α : Type} {a : α} (holds : Holds codec pt rows)
    (addressable : Addressable pt.rowsPerPage rowId)
    (decodes : Fits codec (pageRows pt.rowsPerPage (rows.insert rowId row)
        (pageOf pt.rowsPerPage rowId)) →
      Decodes codec (pageRows pt.rowsPerPage (rows.insert rowId row)
        (pageOf pt.rowsPerPage rowId))) :
    StoresPage codec pt rows (rows.insert rowId row)
      (pageRows pt.rowsPerPage (rows.insert rowId row) (pageOf pt.rowsPerPage rowId))
      (do
        PageTable.putRow codec rowId row
        PageTable.writeHeader
        return a) a := by
  refine StoresPage.before (holds.putRow addressable decodes) fun mid held => ?_
  obtain ⟨file, wrote, held'⟩ := held.writeHeader
  exact ⟨_, bind_eq_ok.mpr ⟨_, _, wrote, rfl⟩, held', rfl, rfl⟩

/-- The next id is no part of the rows. -/
theorem Holds.withNextId (holds : Holds codec pt rows) (nextId : Nat) :
    Holds codec { pt with nextId } rows :=
  ⟨holds.rowsPerPage, holds.mapped, holds.slots, holds.cache, holds.ids⟩

/-- Rewriting a stored row. -/
theorem Holds.update (holds : Holds codec pt rows) (addressable : Addressable pt.rowsPerPage rowId)
    (present : rowId ∈ rows)
    (decodes : Fits codec (pageRows pt.rowsPerPage (rows.insert rowId row)
        (pageOf pt.rowsPerPage rowId)) →
      Decodes codec (pageRows pt.rowsPerPage (rows.insert rowId row)
        (pageOf pt.rowsPerPage rowId))) :
    StoresPage codec pt rows (rows.insert rowId row)
      (pageRows pt.rowsPerPage (rows.insert rowId row) (pageOf pt.rowsPerPage rowId))
      (PageTable.update codec rowId row) true := by
  have low := (holds.ids rowId present).2
  obtain ⟨cache, loaded, held⟩ := holds.loadPage low
  have listed : rowId ∈ pageRows pt.rowsPerPage rows (pageOf pt.rowsPerPage rowId) := by
    rw [ExtTreeMap.mem_iff_isSome_getElem?, getElem?_pageRows, if_pos rfl]
    exact ExtTreeMap.mem_iff_isSome_getElem?.mp present
  have inserted : (pageRows pt.rowsPerPage rows (pageOf pt.rowsPerPage rowId)).insert rowId row =
      pageRows pt.rowsPerPage (rows.insert rowId row) (pageOf pt.rowsPerPage rowId) := by
    rw [pageRows_insert, if_pos rfl]
  unfold PageTable.update
  refine StoresPage.after (get_eq_ok.mpr ⟨rfl, rfl⟩) ⟨rfl, rfl⟩ ?_
  refine StoresPage.after (pageId_ok holds.rowsPerPage addressable) ⟨rfl, rfl⟩ ?_
  rw [if_neg (Nat.not_le.mpr low)]
  refine StoresPage.after loaded ⟨rfl, rfl⟩ ?_
  rw [if_pos listed, inserted]
  refine StoresPage.before (held.storesPage low decodes (fun other differ => ?_) fun id member => ?_)
    fun mid held' => ⟨mid, rfl, held', rfl, rfl⟩
  · dsimp only
    rw [pageRows_insert, if_neg differ]
  · rcases ExtTreeMap.mem_insert.mp member with here | before
    · rw [← LawfulEqOrd.eq_of_compare here]
      exact ⟨addressable.1, low⟩
    · exact holds.ids id before

/-- Removing a stored row. -/
theorem Holds.delete (holds : Holds codec pt rows) (addressable : Addressable pt.rowsPerPage rowId)
    (present : rowId ∈ rows)
    (decodes : Fits codec (pageRows pt.rowsPerPage (rows.erase rowId)
        (pageOf pt.rowsPerPage rowId)) →
      Decodes codec (pageRows pt.rowsPerPage (rows.erase rowId)
        (pageOf pt.rowsPerPage rowId))) :
    StoresPage codec pt rows (rows.erase rowId)
      (pageRows pt.rowsPerPage (rows.erase rowId) (pageOf pt.rowsPerPage rowId))
      (PageTable.delete codec rowId) true := by
  have low := (holds.ids rowId present).2
  obtain ⟨cache, loaded, held⟩ := holds.loadPage low
  have listed : rowId ∈ pageRows pt.rowsPerPage rows (pageOf pt.rowsPerPage rowId) := by
    rw [ExtTreeMap.mem_iff_isSome_getElem?, getElem?_pageRows, if_pos rfl]
    exact ExtTreeMap.mem_iff_isSome_getElem?.mp present
  have erased : (pageRows pt.rowsPerPage rows (pageOf pt.rowsPerPage rowId)).erase rowId =
      pageRows pt.rowsPerPage (rows.erase rowId) (pageOf pt.rowsPerPage rowId) := by
    rw [pageRows_erase, if_pos rfl]
  unfold PageTable.delete
  refine StoresPage.after (get_eq_ok.mpr ⟨rfl, rfl⟩) ⟨rfl, rfl⟩ ?_
  refine StoresPage.after (pageId_ok holds.rowsPerPage addressable) ⟨rfl, rfl⟩ ?_
  rw [if_neg (Nat.not_le.mpr low)]
  refine StoresPage.after loaded ⟨rfl, rfl⟩ ?_
  rw [if_pos listed, erased]
  refine StoresPage.before (held.storesPage low decodes (fun other differ => ?_) fun id member => ?_)
    fun mid held' => ⟨mid, rfl, held', rfl, rfl⟩
  · dsimp only
    rw [pageRows_erase, if_neg differ]
  · exact holds.ids id (ExtTreeMap.mem_of_mem_erase member)

/-- Removing a row that is not there changes nothing. -/
theorem Holds.delete_absent (holds : Holds codec pt rows)
    (addressable : Addressable pt.rowsPerPage rowId) (absent : rowId ∉ rows) :
    ∃ cache, PageTable.delete codec rowId pt = .ok false { pt with cache } ∧
      Holds codec { pt with cache } rows := by
  have unlisted : rowId ∉ pageRows pt.rowsPerPage rows (pageNumber pt.rowsPerPage rowId) := by
    rw [pageNumber_eq addressable, ExtTreeMap.mem_iff_isSome_getElem?, getElem?_pageRows,
      if_pos rfl, ← ExtTreeMap.mem_iff_isSome_getElem?]
    exact absent
  obtain ⟨cache, kept, held⟩ := holds.pages.changeRow_absent
    (hasPage_of_pos addressable.1 holds.rowsPerPage) (·.erase rowId) unlisted
  rw [delete_eq_changeRow]
  exact ⟨cache, kept, held.holds rfl holds.rowsPerPage holds.ids⟩

end Writes

end MoodengSQL
