import MoodengSQL.Core.PageTable

/-!
# Rows in pages and pages in slots

Which rows belong to which page, and what the slot of a page in the file holds:
nothing yet, or the length of an encoded page, the encoding, and zeros.
-/

namespace MoodengSQL

open Foundation Std

/-- The page a row belongs to. -/
def pageOf (rowsPerPage rowId : Nat) : Nat := (rowId - 1) / rowsPerPage

/-- The rows of a page. -/
def pageRows (rowsPerPage : Nat) (rows : Map Nat Row) (page : Nat) : PageBody :=
  rows.filter fun id _ => pageOf rowsPerPage id = page

section Rows

variable {rowsPerPage : Nat} {rows : Map Nat Row}

theorem getElem?_pageRows (page id : Nat) :
    (pageRows rowsPerPage rows page)[id]? =
      if pageOf rowsPerPage id = page then rows[id]? else none := by
  rw [pageRows, ExtTreeMap.getElem?_filter']
  by_cases here : pageOf rowsPerPage id = page
  · cases rows[id]? with
    | none => simp
    | some row => simp [Option.filter, here]
  · cases rows[id]? with
    | none => simp
    | some row => simp [Option.filter, here]

theorem pageRows_insert (rowId : Nat) (row : Row) (page : Nat) :
    pageRows rowsPerPage (rows.insert rowId row) page =
      if pageOf rowsPerPage rowId = page then (pageRows rowsPerPage rows page).insert rowId row
      else pageRows rowsPerPage rows page := by
  apply ExtTreeMap.ext_getElem?
  intro id
  by_cases here : pageOf rowsPerPage rowId = page
  · rw [if_pos here, getElem?_pageRows, ExtTreeMap.getElem?_insert, ExtTreeMap.getElem?_insert,
      getElem?_pageRows]
    by_cases same : rowId = id
    · subst same
      simp [here]
    · simp [same]
  · rw [if_neg here, getElem?_pageRows, getElem?_pageRows, ExtTreeMap.getElem?_insert]
    by_cases same : rowId = id
    · subst same
      simp [here]
    · simp [same]

theorem pageRows_erase (rowId page : Nat) :
    pageRows rowsPerPage (rows.erase rowId) page =
      if pageOf rowsPerPage rowId = page then (pageRows rowsPerPage rows page).erase rowId
      else pageRows rowsPerPage rows page := by
  apply ExtTreeMap.ext_getElem?
  intro id
  by_cases here : pageOf rowsPerPage rowId = page
  · rw [if_pos here, getElem?_pageRows, ExtTreeMap.getElem?_erase, ExtTreeMap.getElem?_erase,
      getElem?_pageRows]
    by_cases same : rowId = id
    · subst same
      simp
    · simp [same]
  · rw [if_neg here, getElem?_pageRows, getElem?_pageRows, ExtTreeMap.getElem?_erase]
    by_cases same : rowId = id
    · subst same
      simp [here]
    · simp [same]

/-- A page without rows. -/
theorem pageRows_eq_empty {page : Nat} (absent : ∀ id ∈ rows, pageOf rowsPerPage id ≠ page) :
    pageRows rowsPerPage rows page = ∅ := by
  apply ExtTreeMap.ext_getElem?
  intro id
  rw [getElem?_pageRows, ExtTreeMap.getElem?_empty]
  by_cases here : pageOf rowsPerPage id = page
  · rw [if_pos here, ExtTreeMap.getElem?_eq_none]
    exact fun member => absent id member here
  · rw [if_neg here]

/-- A map is read back from its entries, in whatever order they come. -/
theorem ofList_of_perm {body : PageBody} {entries : List (Nat × Row)}
    (perm : entries.Perm body.toList) : (.ofList entries : PageBody) = body := by
  have distinct : entries.Pairwise fun a b => ¬ compare a.1 b.1 = .eq :=
    perm.symm.pairwise ExtTreeMap.distinct_keys_toList fun differ same =>
      differ (Std.OrientedCmp.eq_symm same)
  apply ExtTreeMap.ext_getElem?
  intro id
  cases present : body[id]? with
  | some row =>
      have member : (id, row) ∈ entries :=
        perm.mem_iff.mpr (ExtTreeMap.mem_toList_iff_getElem?_eq_some.mpr present)
      exact ExtTreeMap.getElem?_ofList_of_mem Std.compare_self distinct member
  | none =>
      apply ExtTreeMap.getElem?_eq_none
      intro member
      rw [ExtTreeMap.mem_ofList, List.contains_iff_mem, List.mem_map] at member
      obtain ⟨⟨other, row⟩, listed, rfl⟩ := member
      rw [ExtTreeMap.mem_toList_iff_getElem?_eq_some.mp (perm.mem_iff.mp listed)] at present
      cases present

end Rows

section Slots

variable [Runtime] (codec : PageCodec)

/-- A page whose encoding, with its length before it, fits its slot. -/
def Fits (body : PageBody) : Prop :=
  (PageTable.encodePage codec body).length + 4 ≤ PAGE_SLOT_BYTES

instance (body : PageBody) : Decidable (Fits codec body) := inferInstanceAs (Decidable (_ ≤ _))

/-- `bincode` decodes the page back. An encoded map is at least its length. -/
def Decodes (body : PageBody) : Prop :=
  PageTable.encodePage codec body ≠ [] ∧
    codec.deserialize (PageTable.encodePage codec body) =
      .ok (Runtime.hashOrder.order "PageBody.rows" body.toList)

instance (body : PageBody) : Decidable (Decodes codec body) :=
  inferInstanceAs (Decidable (_ ∧ _))

/-- Where the slot of a page begins. -/
def slotOffset (page : Nat) : Nat := HEADER_BYTES + PAGE_SLOT_BYTES * page

/-- The slot of a page. -/
def slotOf (bytes : List UInt8) (page : Nat) : List UInt8 :=
  readAt bytes (slotOffset page) PAGE_SLOT_BYTES

/-- What a slot holds for a page. -/
inductive SlotHolds (slot : List UInt8) (body : PageBody) : Prop
  | unused (zero : readAt slot 0 4 = List.replicate 4 0) (empty : body = ∅)
  | stored (fits : Fits codec body) (decodes : Decodes codec body) (zeros : List UInt8)
      (layout : slot = toLeBytes 4 (PageTable.encodePage codec body).length ++
        PageTable.encodePage codec body ++ zeros)

end Slots

end MoodengSQL
