import MoodengSQL.Paging.Pages

/-!
# Calls on the pages of a table

What each call of a page table returns and which pages the table holds after it,
for rows that may lie on any page. A row is looked for, and written, on the one
page that `page_id` computes from the settings; a scan goes through all pages.
-/

namespace MoodengSQL

open Foundation Foundation.Effect Std

variable [Runtime] {codec : PageCodec} {pt : PageTable} {pages : Nat → PageBody} {rowId : Nat}

section Numbers

/-- The page that `page_id` computes for a row. -/
def pageNumber (rowsPerPage rowId : Nat) : Nat :=
  (rowId + (2 ^ 64 - 1)) % 2 ^ 64 / rowsPerPage % 2 ^ 32

/-- `page_id` computes a page for a row. -/
def HasPage (rowsPerPage rowId : Nat) : Prop :=
  ¬ (rowId = 0 ∧ Runtime.overflowChecks = true) ∧ rowsPerPage ≠ 0

instance (rowsPerPage rowId : Nat) : Decidable (HasPage rowsPerPage rowId) :=
  inferInstanceAs (Decidable (_ ∧ _))

theorem hasPage_of_pos {rowsPerPage : Nat} (row : 0 < rowId) (positive : 0 < rowsPerPage) :
    HasPage rowsPerPage rowId :=
  ⟨fun zero => Nat.ne_of_gt row zero.1, Nat.ne_of_gt positive⟩

theorem pageId_of_hasPage {rowsPerPage : Nat} (numbered : HasPage rowsPerPage rowId) :
    PageTable.pageId rowId rowsPerPage pt = .ok (pageNumber rowsPerPage rowId) pt := by
  obtain ⟨low, positive⟩ := numbered
  rw [PageTable.pageId, if_neg (by simpa using low), if_neg positive]
  rfl

/-- Row id zero has no page where overflow is checked. -/
theorem pageId_zero (checked : Runtime.overflowChecks = true) (rowsPerPage : Nat) (pt : PageTable) :
    PageTable.pageId 0 rowsPerPage pt =
      .error (.panic "attempt to subtract with overflow") pt := by
  rw [PageTable.pageId, if_pos (by simpa using checked)]
  rfl

/-- Where there is no page, `page_id` panics. -/
theorem pageId_panics {rowsPerPage : Nat} (unnumbered : ¬ HasPage rowsPerPage rowId) :
    ∃ reason, ∀ pt, PageTable.pageId rowId rowsPerPage pt = .error (.panic reason) pt := by
  by_cases low : rowId = 0 ∧ Runtime.overflowChecks = true
  · obtain ⟨rfl, checked⟩ := low
    exact ⟨_, pageId_zero checked rowsPerPage⟩
  · have zero : rowsPerPage = 0 := by
      by_contra positive
      exact unnumbered ⟨low, positive⟩
    refine ⟨"attempt to divide by zero", fun pt => ?_⟩
    rw [PageTable.pageId, if_neg (by simpa using low), if_pos zero]
    rfl

end Numbers

section Reads

/-- `get` answers with what the page of the row has under its id. -/
theorem HoldsPages.get (holds : HoldsPages codec pt pages)
    (numbered : HasPage pt.rowsPerPage rowId) :
    ∃ cache, PageTable.get codec rowId pt =
        .ok (pages (pageNumber pt.rowsPerPage rowId))[rowId]? { pt with cache } ∧
      HoldsPages codec { pt with cache } pages := by
  unfold PageTable.get
  rw [get_bind, bind_of_ok (pageId_of_hasPage numbered)]
  by_cases low : pageNumber pt.rowsPerPage rowId < pt.pageCount
  · obtain ⟨cache, loaded, held⟩ := holds.loadPage low
    refine ⟨cache, ?_, held⟩
    rw [if_neg (Nat.not_le.mpr low), bind_of_ok loaded]
    rfl
  · refine ⟨pt.cache, ?_, holds⟩
    rw [if_pos (Nat.not_lt.mp low), holds.unused _ (Nat.not_lt.mp low), ExtTreeMap.getElem?_empty]
    rfl

/-- The entries of the pages, page by page. -/
def entriesOf (pages : Nat → PageBody) (numbers : List Nat) : List (Nat × Row) :=
  numbers.flatMap fun page => Runtime.hashOrder.order "scan" (pages page).toList

theorem mem_entriesOf {numbers : List Nat} {row : Row} :
    (rowId, row) ∈ entriesOf pages numbers ↔ ∃ page ∈ numbers, (pages page)[rowId]? = some row := by
  simp only [entriesOf, List.mem_flatMap, (Runtime.hashOrder.perm _ _).mem_iff,
    ExtTreeMap.mem_toList_iff_getElem?_eq_some]

theorem HoldsPages.collectPages (holds : HoldsPages codec pt pages) (numbers : List Nat)
    (low : ∀ page ∈ numbers, page < pt.pageCount) :
    ∃ cache, PageTable.collectPages codec numbers pt =
        .ok (entriesOf pages numbers) { pt with cache } ∧
      HoldsPages codec { pt with cache } pages := by
  induction numbers generalizing pt with
  | nil => exact ⟨pt.cache, rfl, holds⟩
  | cons page rest ih =>
      obtain ⟨cache, loaded, held⟩ := holds.loadPage (low page List.mem_cons_self)
      obtain ⟨cache', collected, held'⟩ :=
        ih held fun other member => low other (List.mem_cons_of_mem _ member)
      refine ⟨cache', ?_, held'⟩
      rw [PageTable.collectPages, bind_of_ok loaded, bind_of_ok collected]
      rfl

/-- `scan` answers with what all pages have. -/
theorem HoldsPages.scan (holds : HoldsPages codec pt pages) :
    ∃ cache, PageTable.scan codec pt =
        .ok (PageTable.sortById (entriesOf pages (List.range pt.pageCount))) { pt with cache } ∧
      HoldsPages codec { pt with cache } pages := by
  obtain ⟨cache, collected, held⟩ :=
    holds.collectPages (List.range pt.pageCount) fun page => List.mem_range.mp
  refine ⟨cache, ?_, held⟩
  unfold PageTable.scan
  rw [get_bind, bind_of_ok collected]
  rfl

/-- Pages that have the rows of a table, each row once, have its entries. -/
theorem entriesOf_perm {rows : Map Nat Row} {count : Nat}
    (once : ∀ page other rowId, rowId ∈ pages page → rowId ∈ pages other → page = other)
    (exact : ∀ (rowId : Nat) (row : Row), (∃ page < count, (pages page)[rowId]? = some row) ↔
      rows[rowId]? = some row) :
    (entriesOf pages (List.range count)).Perm rows.toList := by
  have nodup : ∀ map : Map Nat Row, map.toList.Nodup := by
    intro map
    apply List.Nodup.of_map Prod.fst
    rw [ExtTreeMap.map_fst_toList_eq_keys]
    exact ExtTreeMap.nodup_keys
  have distinct : (entriesOf pages (List.range count)).Nodup := by
    rw [entriesOf, List.nodup_flatMap]
    refine ⟨fun page _ => (Runtime.hashOrder.perm _ _).nodup_iff.mpr (nodup _),
      List.nodup_range.imp fun differ => ?_⟩
    rintro ⟨rowId, row⟩ first second
    have onPage : ∀ {page : Nat}, (rowId, row) ∈ Runtime.hashOrder.order "scan"
        (pages page).toList → rowId ∈ pages page := by
      intro page member
      rw [(Runtime.hashOrder.perm _ _).mem_iff,
        ExtTreeMap.mem_toList_iff_getElem?_eq_some] at member
      exact Map.mem_of_getElem?_eq_some member
    exact differ (once _ _ rowId (onPage first) (onPage second))
  refine (List.perm_ext_iff_of_nodup distinct (nodup rows)).mpr fun ⟨rowId, row⟩ => ?_
  rw [mem_entriesOf, ExtTreeMap.mem_toList_iff_getElem?_eq_some, ← exact]
  simp only [List.mem_range]

omit [Runtime] in
/-- The entries of a table, sorted, are its rows by ascending id. -/
theorem sortById_of_perm {rows : Map Nat Row} {entries : List (Nat × Row)}
    (listed : entries.Perm rows.toList) : PageTable.sortById entries = rows.toList := by
  have perm : (PageTable.sortById entries).Perm rows.toList :=
    (List.perm_insertionSort _ _).trans listed
  have ascending : rows.toList.Pairwise fun a b => a.1 < b.1 :=
    ExtTreeMap.ordered_keys_toList.imp Nat.compare_eq_lt.mp
  refine perm.eq_of_pairwise ?_ (List.pairwise_insertionSort _ _)
    (ascending.imp fun lower => Nat.le_of_lt lower)
  intro a b inFirst inSecond ab ba
  have found : ∀ {entry : Nat × Row}, entry ∈ rows.toList → rows[entry.1]? = some entry.2 :=
    fun member => ExtTreeMap.mem_toList_iff_getElem?_eq_some.mp member
  have same : a.1 = b.1 := Nat.le_antisymm ab ba
  have values := found (perm.mem_iff.mp inFirst)
  rw [same, found inSecond] at values
  exact Prod.ext same (Option.some.inj values).symm

theorem HoldsPages.countPages (holds : HoldsPages codec pt pages) (numbers : List Nat)
    (count : Nat) (low : ∀ page ∈ numbers, page < pt.pageCount) :
    ∃ cache, PageTable.countPages codec numbers count pt =
        .ok (count + (entriesOf pages numbers).length) { pt with cache } ∧
      HoldsPages codec { pt with cache } pages := by
  induction numbers generalizing pt count with
  | nil => exact ⟨pt.cache, rfl, holds⟩
  | cons page rest ih =>
      obtain ⟨cache, loaded, held⟩ := holds.loadPage (low page List.mem_cons_self)
      obtain ⟨cache', counted, held'⟩ := ih held (count + (pages page).size)
        fun other member => low other (List.mem_cons_of_mem _ member)
      refine ⟨cache', ?_, held'⟩
      have entries : (entriesOf pages (page :: rest)).length =
          (pages page).size + (entriesOf pages rest).length := by
        rw [entriesOf, List.flatMap_cons, List.length_append,
          (Runtime.hashOrder.perm _ _).length_eq, ExtTreeMap.length_toList]
        rfl
      rw [PageTable.countPages, bind_eq_ok, entries, ← Nat.add_assoc]
      refine ⟨_, _, ?_, counted⟩
      simp only [tryCatch, tryCatchThe, MonadExceptOf.tryCatch, EStateM.tryCatch, bind,
        EStateM.bind, loaded]
      rfl

/-- `row_count` answers with how much all pages have. -/
theorem HoldsPages.rowCount (holds : HoldsPages codec pt pages) :
    ∃ cache, PageTable.rowCount codec pt =
        .ok (entriesOf pages (List.range pt.pageCount)).length { pt with cache } ∧
      HoldsPages codec { pt with cache } pages := by
  obtain ⟨cache, counted, held⟩ :=
    holds.countPages (List.range pt.pageCount) 0 fun page => List.mem_range.mp
  refine ⟨cache, ?_, held⟩
  rw [Nat.zero_add] at counted
  unfold PageTable.rowCount
  rw [get_bind, counted]

end Reads

section Writes

/-- The body that `update` and `delete` have in common: a row that is there has
its page stored with a change. -/
def changeRow (codec : PageCodec) (rowId : Nat) (change : PageBody → PageBody) : PageM Bool := do
  let pt ← MonadState.get
  let pageId ← PageTable.pageId rowId pt.rowsPerPage
  if pageId ≥ pt.pageCount then return false
  else
    let body ← PageTable.loadPage codec pageId
    if rowId ∈ body then
      PageTable.storePage codec pageId (change body)
      return true
    else return false

theorem update_eq_changeRow (row : Row) :
    PageTable.update codec rowId row = changeRow codec rowId (·.insert rowId row) := rfl

theorem delete_eq_changeRow :
    PageTable.delete codec rowId = changeRow codec rowId (·.erase rowId) := rfl

/-- Where there is no such row, nothing changes. -/
theorem HoldsPages.changeRow_absent (holds : HoldsPages codec pt pages)
    (numbered : HasPage pt.rowsPerPage rowId) (change : PageBody → PageBody)
    (absent : rowId ∉ pages (pageNumber pt.rowsPerPage rowId)) :
    ∃ cache, changeRow codec rowId change pt = .ok false { pt with cache } ∧
      HoldsPages codec { pt with cache } pages := by
  unfold changeRow
  rw [get_bind, bind_of_ok (pageId_of_hasPage numbered)]
  by_cases low : pageNumber pt.rowsPerPage rowId < pt.pageCount
  · obtain ⟨cache, loaded, held⟩ := holds.loadPage low
    refine ⟨cache, ?_, held⟩
    rw [if_neg (Nat.not_le.mpr low), bind_of_ok loaded, if_neg absent]
    rfl
  · refine ⟨pt.cache, ?_, holds⟩
    rw [if_pos (Nat.not_lt.mp low)]
    rfl

/-- A row that is there has its page stored, if the page still fits. -/
theorem HoldsPages.changeRow_present (holds : HoldsPages codec pt pages)
    (numbered : HasPage pt.rowsPerPage rowId) (change : PageBody → PageBody)
    (present : rowId ∈ pages (pageNumber pt.rowsPerPage rowId))
    (fits : Fits codec (change (pages (pageNumber pt.rowsPerPage rowId))))
    (decodes : Decodes codec (change (pages (pageNumber pt.rowsPerPage rowId)))) :
    ∃ file cache, changeRow codec rowId change pt = .ok true { pt with file, cache } ∧
      HoldsPages codec { pt with file, cache }
        (Function.update pages (pageNumber pt.rowsPerPage rowId)
          (change (pages (pageNumber pt.rowsPerPage rowId)))) ∧
      PageTable.readHeader file = PageTable.readHeader pt.file := by
  have low : pageNumber pt.rowsPerPage rowId < pt.pageCount := by
    by_contra high
    rw [holds.unused _ (Nat.not_lt.mp high)] at present
    exact ExtTreeMap.not_mem_empty present
  obtain ⟨cache, loaded, held⟩ := holds.loadPage low
  obtain ⟨file, cache', stored, held', header⟩ := held.storePage low fits decodes
  refine ⟨file, cache', ?_, held', header⟩
  unfold changeRow
  rw [get_bind, bind_of_ok (pageId_of_hasPage numbered), if_neg (Nat.not_le.mpr low),
    bind_of_ok loaded, if_pos present, bind_of_ok stored]
  rfl

/-- A row whose page would not fit stays as it is. -/
theorem HoldsPages.changeRow_overflow (holds : HoldsPages codec pt pages)
    (numbered : HasPage pt.rowsPerPage rowId) (change : PageBody → PageBody)
    (present : rowId ∈ pages (pageNumber pt.rowsPerPage rowId))
    (overflows : ¬ Fits codec (change (pages (pageNumber pt.rowsPerPage rowId)))) :
    ∃ cache, changeRow codec rowId change pt =
        .error (.error (.storage "page overflow")) { pt with cache } ∧
      HoldsPages codec { pt with cache } pages := by
  have low : pageNumber pt.rowsPerPage rowId < pt.pageCount := by
    by_contra high
    rw [holds.unused _ (Nat.not_lt.mp high)] at present
    exact ExtTreeMap.not_mem_empty present
  obtain ⟨cache, loaded, held⟩ := holds.loadPage low
  refine ⟨cache, ?_, held⟩
  unfold changeRow
  rw [get_bind, bind_of_ok (pageId_of_hasPage numbered), if_neg (Nat.not_le.mpr low),
    bind_of_ok loaded, if_pos present, bind_eq_error]
  exact .inl (held.storePage_overflow low overflows)

variable {row : Row}

/-- `put_row` grows the table to the page of the row. A page that fits with the
row is stored. -/
theorem HoldsPages.putRow (holds : HoldsPages codec pt pages)
    (numbered : HasPage pt.rowsPerPage rowId)
    (bound : pageNumber pt.rowsPerPage rowId < 2 ^ 32 - 1)
    (fits : Fits codec ((pages (pageNumber pt.rowsPerPage rowId)).insert rowId row))
    (decodes : Decodes codec ((pages (pageNumber pt.rowsPerPage rowId)).insert rowId row)) :
    ∃ pt', PageTable.putRow codec rowId row pt = .ok () pt' ∧
      HoldsPages codec pt' (Function.update pages (pageNumber pt.rowsPerPage rowId)
        ((pages (pageNumber pt.rowsPerPage rowId)).insert rowId row)) ∧
      GrownTo (pageNumber pt.rowsPerPage rowId) pt pt' := by
  obtain ⟨grown, grew, held, grows⟩ := holds.growIfNeeded bound
  have low : pageNumber pt.rowsPerPage rowId < grown.pageCount := by
    have := grows.pageCount
    omega
  obtain ⟨cache, loaded, held'⟩ := held.loadPage low
  obtain ⟨file, cache', stored, held'', header⟩ := held'.storePage low fits decodes
  refine ⟨_, ?_, held'', grows.rowsPerPage, grows.nextId, grows.pageCount,
    fun old => header.trans (grows.kept old), fun new => header.trans (grows.written new)⟩
  unfold PageTable.putRow
  rw [get_bind, bind_of_ok (pageId_of_hasPage numbered), bind_of_ok grew, bind_of_ok loaded,
    stored]

/-- A page that does not fit with the row is refused, behind the growth. -/
theorem HoldsPages.putRow_overflow (holds : HoldsPages codec pt pages)
    (numbered : HasPage pt.rowsPerPage rowId)
    (bound : pageNumber pt.rowsPerPage rowId < 2 ^ 32 - 1)
    (overflows : ¬ Fits codec ((pages (pageNumber pt.rowsPerPage rowId)).insert rowId row)) :
    ∃ pt', PageTable.putRow codec rowId row pt =
        .error (.error (.storage "page overflow")) pt' ∧ HoldsPages codec pt' pages ∧
      GrownTo (pageNumber pt.rowsPerPage rowId) pt pt' := by
  obtain ⟨grown, grew, held, grows⟩ := holds.growIfNeeded bound
  have low : pageNumber pt.rowsPerPage rowId < grown.pageCount := by
    have := grows.pageCount
    omega
  obtain ⟨cache, loaded, held'⟩ := held.loadPage low
  refine ⟨_, ?_, held', grows.rowsPerPage, grows.nextId, grows.pageCount, grows.kept,
    grows.written⟩
  unfold PageTable.putRow
  rw [get_bind, bind_of_ok (pageId_of_hasPage numbered), bind_of_ok grew, bind_of_ok loaded]
  exact held'.storePage_overflow low overflows

end Writes

end MoodengSQL
