import MoodengSQL.Paging.Layout

/-!
# The pages behind a page table

What a page table holds, page by page, whatever rows its pages have: the slots
of its file hold its pages, and its cache holds copies of some of them. The
header of the file holds a next id and a number of pages, which need not be the
current ones.
-/

namespace MoodengSQL

open Foundation Foundation.Effect Std

variable [Runtime] (codec : PageCodec)

/-- The page table holds the pages. -/
structure HoldsPages (pt : PageTable) (pages : Nat → PageBody) : Prop where
  mapped : pt.mapped = true
  slots : ∃ bytes, pt.file = some bytes ∧
    bytes.length = PageTable.fileSizeForPages pt.pageCount ∧
    ∀ page < max pt.pageCount 1, SlotHolds codec (slotOf bytes page) (pages page)
  cache : ∀ page body, pt.cache.pages[page]? = some body → body = pages page
  unused : ∀ page, pt.pageCount ≤ page → pages page = ∅

section Cache

omit [Runtime] in
theorem getElem?_evict {maxPages : Nat} {pages : Map Nat PageBody} {order : List Nat} {page : Nat}
    {body : PageBody} (kept : (LruCache.evict maxPages pages order).1[page]? = some body) :
    pages[page]? = some body := by
  induction order generalizing pages with
  | nil => exact kept
  | cons oldest order ih =>
      unfold LruCache.evict at kept
      split at kept
      · have before := ih kept
        rw [ExtTreeMap.getElem?_erase] at before
        split at before
        · cases before
        · exact before
      · exact kept

omit [Runtime] in
/-- A cached page was inserted now or was cached before. -/
theorem getElem?_cacheInsert {cache : LruCache} {page other : Nat} {body found : PageBody}
    (cached : (cache.insert page body).pages[other]? = some found) :
    other = page ∧ found = body ∨ other ≠ page ∧ cache.pages[other]? = some found := by
  have placed : ∀ pages : Map Nat PageBody, (pages.insert page body)[other]? = some found →
      other = page ∧ found = body ∨ other ≠ page ∧ pages[other]? = some found := by
    intro pages inserted
    rw [ExtTreeMap.getElem?_insert] at inserted
    split at inserted
    · rename_i same
      exact .inl ⟨(LawfulEqOrd.eq_of_compare same).symm, (Option.some.inj inserted).symm⟩
    · rename_i differ
      refine .inr ⟨fun same => differ ?_, inserted⟩
      rw [same]
      exact Std.compare_self
  unfold LruCache.insert at cached
  split at cached
  · exact placed _ cached
  · exact (placed _ cached).imp_right fun before => ⟨before.1, getElem?_evict before.2⟩

end Cache

variable {codec} {pt : PageTable} {pages : Nat → PageBody}

section Mapping

omit [Runtime] in
theorem ensureMmap_of_mapped (mapped : pt.mapped = true) :
    PageTable.ensureMmap pt = .ok () pt := by
  rw [PageTable.ensureMmap, modify_eq_ok, if_pos mapped]

omit [Runtime] in
theorem mapping_of_mapped {bytes : List UInt8} (mapped : pt.mapped = true)
    (file : pt.file = some bytes) : PageTable.mapping pt = .ok bytes pt := by
  rw [PageTable.mapping, bind_eq_ok]
  refine ⟨pt, pt, get_eq_ok.mpr ⟨rfl, rfl⟩, ?_⟩
  rw [mapped, file]
  rfl

omit [Runtime] in
theorem writeSlice_ok {bytes data : List UInt8} {offset : Nat} (mapped : pt.mapped = true)
    (file : pt.file = some bytes) (inside : offset + data.length ≤ bytes.length) :
    PageTable.writeSlice offset data pt =
      .ok () { pt with file := some (writeAt bytes offset data) } := by
  rw [PageTable.writeSlice, bind_eq_ok]
  refine ⟨bytes, pt, mapping_of_mapped mapped file, ?_⟩
  rw [if_pos inside, modify_eq_ok]

omit [Runtime] in
theorem slice_ok {bytes : List UInt8} {offset count : Nat}
    (inside : offset + count ≤ bytes.length) :
    PageTable.slice bytes offset count pt = .ok (readAt bytes offset count) pt := by
  rw [PageTable.slice, if_pos inside]
  rfl

omit [Runtime] in
/-- The slot of a page lies within the file. -/
theorem slot_inside {bytes : List UInt8} {count page : Nat}
    (size : bytes.length = PageTable.fileSizeForPages count) (low : page < max count 1) :
    slotOffset page + PAGE_SLOT_BYTES ≤ bytes.length := by
  have within : PAGE_SLOT_BYTES * (page + 1) ≤ PAGE_SLOT_BYTES * max count 1 :=
    Nat.mul_le_mul_left _ low
  rw [Nat.mul_succ] at within
  rw [size, slotOffset, PageTable.fileSizeForPages]
  omega

omit [Runtime] in
/-- The slots of two pages lie beside each other. -/
theorem slots_beside {page other : Nat} (differ : page ≠ other) :
    slotOffset other + PAGE_SLOT_BYTES ≤ slotOffset page ∨
      slotOffset page + PAGE_SLOT_BYTES ≤ slotOffset other := by
  unfold slotOffset
  rcases Nat.lt_or_gt_of_ne differ with lower | higher
  · have := Nat.mul_le_mul_left PAGE_SLOT_BYTES (Nat.succ_le_of_lt lower)
    rw [Nat.mul_succ] at this
    omega
  · have := Nat.mul_le_mul_left PAGE_SLOT_BYTES (Nat.succ_le_of_lt higher)
    rw [Nat.mul_succ] at this
    omega

end Mapping

/-- The cache is filled with a page of the table. -/
theorem HoldsPages.cached (holds : HoldsPages codec pt pages) (page : Nat) :
    HoldsPages codec { pt with cache := pt.cache.insert page (pages page) } pages where
  mapped := holds.mapped
  slots := holds.slots
  cache := by
    intro other body found
    rcases getElem?_cacheInsert found with ⟨rfl, rfl⟩ | ⟨-, before⟩
    · rfl
    · exact holds.cache other body before
  unused := holds.unused

/-- The slot of a page is read as the page. -/
theorem HoldsPages.readSlot (holds : HoldsPages codec pt pages) {page : Nat}
    (low : page < pt.pageCount) :
    ∃ cache, PageTable.readSlot codec page pt = .ok (pages page) { pt with cache } ∧
      HoldsPages codec { pt with cache } pages := by
  obtain ⟨bytes, file, size, slots⟩ := holds.slots
  have low' : page < max pt.pageCount 1 := Nat.lt_of_lt_of_le low (Nat.le_max_left _ _)
  have inside : slotOffset page + 65536 ≤ bytes.length := slot_inside size low'
  have inner : ∀ {start count : Nat}, start + count ≤ 65536 →
      readAt bytes (slotOffset page + start) count = readAt (slotOf bytes page) start count :=
    fun within => (readAt_readAt bytes within).symm
  have start : PageTable.ensureMmap pt = .ok () pt := ensureMmap_of_mapped holds.mapped
  have mapped := mapping_of_mapped holds.mapped file
  have reads : PageTable.slice bytes (slotOffset page) 4 pt =
      .ok (readAt (slotOf bytes page) 0 4) pt := by
    rw [slice_ok (by omega), ← inner (by omega), Nat.add_zero]
  cases slots page low' with
  | unused zero empty =>
      refine ⟨pt.cache, ?_, holds⟩
      rw [empty, PageTable.readSlot, bind_eq_ok]
      refine ⟨(), pt, start, ?_⟩
      rw [bind_eq_ok]
      refine ⟨bytes, pt, mapped, ?_⟩
      rw [← slotOffset, if_neg (by omega), bind_eq_ok]
      refine ⟨_, pt, reads, ?_⟩
      rw [zero, if_pos (.inl (by decide))]
      rfl
  | stored fits decodes zeros layout =>
      obtain ⟨nonempty, decoded⟩ := decodes
      set encoded := PageTable.encodePage codec (pages page) with named
      have small : encoded.length + 4 ≤ 65536 := fits
      have positive : 0 < encoded.length := List.length_pos_of_ne_nil nonempty
      have length : readAt (slotOf bytes page) 0 4 = toLeBytes 4 encoded.length := by
        rw [layout, List.append_assoc]
        exact length_toLeBytes 4 encoded.length ▸ readAt_zero_append _ _
      have number : fromLeBytes (toLeBytes 4 encoded.length) = encoded.length :=
        fromLeBytes_toLeBytes (by omega)
      have content : readAt bytes (slotOffset page + 4) encoded.length = encoded := by
        rw [inner (by omega), layout]
        exact length_toLeBytes 4 encoded.length ▸ readAt_append_middle _ _ _
      have body := ofList_of_perm (Runtime.hashOrder.perm "PageBody.rows" (pages page).toList)
      refine ⟨_, ?_, holds.cached page⟩
      rw [PageTable.readSlot, bind_eq_ok]
      refine ⟨(), pt, start, ?_⟩
      rw [bind_eq_ok]
      refine ⟨bytes, pt, mapped, ?_⟩
      rw [← slotOffset, if_neg (by omega), bind_eq_ok]
      refine ⟨_, pt, reads, ?_⟩
      rw [length, number, if_neg (by omega), bind_eq_ok]
      refine ⟨_, pt, slice_ok (by omega), ?_⟩
      rw [content, decoded]
      dsimp only
      rw [body]
      rfl

/-- **Loading a page** gives the page, from the cache or from its slot. -/
theorem HoldsPages.loadPage (holds : HoldsPages codec pt pages) {page : Nat}
    (low : page < pt.pageCount) :
    ∃ cache, PageTable.loadPage codec page pt = .ok (pages page) { pt with cache } ∧
      HoldsPages codec { pt with cache } pages := by
  cases cached : pt.cache.pages[page]? with
  | some body =>
      refine ⟨pt.cache.touch page, ?_, holds.mapped, holds.slots, holds.cache, holds.unused⟩
      rw [PageTable.loadPage, bind_eq_ok]
      refine ⟨pt, pt, get_eq_ok.mpr ⟨rfl, rfl⟩, ?_⟩
      simp only [LruCache.get, cached]
      rw [holds.cache page body cached]
      rfl
  | none =>
      obtain ⟨cache, ran, held⟩ := holds.readSlot low
      refine ⟨cache, ?_, held⟩
      rw [PageTable.loadPage, bind_eq_ok]
      refine ⟨pt, pt, get_eq_ok.mpr ⟨rfl, rfl⟩, ?_⟩
      simp only [LruCache.get, cached]
      exact ran

section Store

/-- The file after a page is written to its slot. -/
def storeSlot (bytes : List UInt8) (page : Nat) (encoded : List UInt8) : List UInt8 :=
  writeAt (writeAt (writeAt bytes (slotOffset page) (List.replicate PAGE_SLOT_BYTES 0))
    (slotOffset page) (toLeBytes 4 encoded.length)) (slotOffset page + 4) encoded

variable {bytes encoded : List UInt8} {page : Nat}

omit [Runtime] in
/-- A write inside a slot keeps the size of the file and the other slots. -/
theorem slot_write (inner : Nat) (data : List UInt8)
    (inside : slotOffset page + PAGE_SLOT_BYTES ≤ bytes.length)
    (fits : inner + data.length ≤ PAGE_SLOT_BYTES) :
    (writeAt bytes (slotOffset page + inner) data).length = bytes.length ∧
      slotOf (writeAt bytes (slotOffset page + inner) data) page =
        writeAt (slotOf bytes page) inner data ∧
      ∀ other, page ≠ other →
        slotOf (writeAt bytes (slotOffset page + inner) data) other = slotOf bytes other := by
  refine ⟨length_writeAt (by omega), readAt_writeAt_within fits inside, fun other differ => ?_⟩
  apply readAt_writeAt_beside (by omega)
  have := slots_beside differ
  omega

omit [Runtime] in
/-- **A stored page** takes its slot, keeps the size of the file and leaves the
other slots alone. -/
theorem storeSlot_spec (inside : slotOffset page + PAGE_SLOT_BYTES ≤ bytes.length)
    (fits : encoded.length + 4 ≤ PAGE_SLOT_BYTES) :
    (storeSlot bytes page encoded).length = bytes.length ∧
      (∃ zeros, slotOf (storeSlot bytes page encoded) page =
        toLeBytes 4 encoded.length ++ encoded ++ zeros) ∧
      ∀ other, page ≠ other → slotOf (storeSlot bytes page encoded) other = slotOf bytes other := by
  have width : (toLeBytes 4 encoded.length).length = 4 := length_toLeBytes 4 _
  have filled : (List.replicate PAGE_SLOT_BYTES (0 : UInt8)).length = PAGE_SLOT_BYTES :=
    List.length_replicate
  obtain ⟨size₁, -, others₁⟩ :=
    slot_write 0 (List.replicate PAGE_SLOT_BYTES 0) inside (by omega)
  obtain ⟨size₂, slot₂, others₂⟩ :=
    slot_write 0 (toLeBytes 4 encoded.length) (size₁ ▸ inside) (by omega)
  obtain ⟨size₃, slot₃, others₃⟩ := slot_write 4 encoded (size₂ ▸ size₁ ▸ inside) (by omega)
  rw [Nat.add_zero] at *
  have behind := writeAt_behind (slotOf (writeAt bytes (slotOffset page)
    (List.replicate PAGE_SLOT_BYTES 0)) page) (toLeBytes 4 encoded.length) encoded
  rw [width] at behind
  exact ⟨size₃.trans (size₂.trans size₁), ⟨_, slot₃.trans (slot₂ ▸ behind)⟩, fun other differ =>
    (others₃ other differ).trans ((others₂ other differ).trans (others₁ other differ))⟩

omit [Runtime] in
/-- Files with the same first bytes have the same header. -/
theorem readHeader_congr {bytes' : List UInt8} (size : HEADER_BYTES ≤ bytes.length)
    (size' : HEADER_BYTES ≤ bytes'.length)
    (same : readAt bytes' 0 HEADER_BYTES = readAt bytes 0 HEADER_BYTES) :
    PageTable.readHeader (some bytes') = PageTable.readHeader (some bytes) := by
  have part : ∀ {start count : Nat}, start + count ≤ HEADER_BYTES →
      readAt bytes' start count = readAt bytes start count := by
    intro start count inside
    have cut (all : List UInt8) :
        readAt (readAt all 0 HEADER_BYTES) start count = readAt all start count := by
      rw [readAt_readAt all inside, Nat.zero_add]
    rw [← cut bytes', ← cut bytes, same]
  rw [PageTable.readHeader, PageTable.readHeader, if_neg (by omega), if_neg (by omega),
    part (by decide), part (by decide)]

omit [Runtime] in
/-- Storing a page leaves the header alone. -/
theorem readHeader_storeSlot (inside : slotOffset page + PAGE_SLOT_BYTES ≤ bytes.length)
    (fits : encoded.length + 4 ≤ PAGE_SLOT_BYTES) :
    PageTable.readHeader (some (storeSlot bytes page encoded)) =
      PageTable.readHeader (some bytes) := by
  have size := (storeSlot_spec inside fits).1
  have room : HEADER_BYTES ≤ slotOffset page := Nat.le_add_right HEADER_BYTES _
  have width : (toLeBytes 4 encoded.length).length = 4 := length_toLeBytes 4 _
  have filled : (List.replicate PAGE_SLOT_BYTES (0 : UInt8)).length = PAGE_SLOT_BYTES :=
    List.length_replicate
  have size₁ : (writeAt bytes (slotOffset page) (List.replicate PAGE_SLOT_BYTES 0)).length =
      bytes.length := length_writeAt (by omega)
  have size₂ : (writeAt (writeAt bytes (slotOffset page) (List.replicate PAGE_SLOT_BYTES 0))
      (slotOffset page) (toLeBytes 4 encoded.length)).length = bytes.length :=
    (length_writeAt (by omega)).trans size₁
  apply readHeader_congr (by omega) (by omega)
  unfold storeSlot
  rw [readAt_writeAt_beside (by omega) (by omega), readAt_writeAt_beside (by omega) (by omega),
    readAt_writeAt_beside (by omega) (by omega)]

/-- **Storing a page** that fits replaces the page. -/
theorem HoldsPages.storePage {body : PageBody} (holds : HoldsPages codec pt pages)
    (low : page < pt.pageCount) (fits : Fits codec body) (decodes : Decodes codec body) :
    ∃ file cache, PageTable.storePage codec page body pt = .ok () { pt with file, cache } ∧
      HoldsPages codec { pt with file, cache } (Function.update pages page body) ∧
      PageTable.readHeader file = PageTable.readHeader pt.file := by
  obtain ⟨bytes, file, size, slots⟩ := holds.slots
  have low' : page < max pt.pageCount 1 := Nat.lt_of_lt_of_le low (Nat.le_max_left _ _)
  have inside := slot_inside size low'
  obtain ⟨size', ⟨zeros, slot⟩, beside⟩ := storeSlot_spec inside fits
  refine ⟨some (storeSlot bytes page (PageTable.encodePage codec body)),
    pt.cache.insert page body, ?_, ⟨holds.mapped, ?_, ?_, ?_⟩, ?_⟩
  · have small : (PageTable.encodePage codec body).length + 4 ≤ PAGE_SLOT_BYTES := fits
    have filled : (List.replicate PAGE_SLOT_BYTES (0 : UInt8)).length = PAGE_SLOT_BYTES :=
      List.length_replicate
    have width : (toLeBytes 4 (PageTable.encodePage codec body).length).length = 4 :=
      length_toLeBytes 4 _
    rw [PageTable.storePage, bind_eq_ok]
    refine ⟨pt, pt, get_eq_ok.mpr ⟨rfl, rfl⟩, ?_⟩
    rw [if_neg (Nat.not_le.mpr low), bind_eq_ok]
    refine ⟨(), pt, ensureMmap_of_mapped holds.mapped, ?_⟩
    dsimp only
    rw [if_neg (Nat.not_lt.mpr small), ← slotOffset, bind_eq_ok]
    refine ⟨(), _, writeSlice_ok holds.mapped file (by omega), ?_⟩
    have cleared : (writeAt bytes (slotOffset page) (List.replicate PAGE_SLOT_BYTES 0)).length =
        bytes.length := length_writeAt (by omega)
    rw [bind_eq_ok]
    refine ⟨(), _, writeSlice_ok holds.mapped rfl (by omega), ?_⟩
    rw [bind_eq_ok]
    refine ⟨(), _, writeSlice_ok holds.mapped rfl (by rw [length_writeAt]; omega; omega), ?_⟩
    rw [modify_eq_ok]
    rfl
  · refine ⟨_, rfl, size'.trans size, fun other low => ?_⟩
    by_cases same : other = page
    · subst same
      rw [Function.update_self]
      exact .stored fits decodes zeros slot
    · rw [beside other (Ne.symm same), Function.update_of_ne same]
      exact slots other low
  · intro other found cached
    rcases getElem?_cacheInsert cached with ⟨rfl, rfl⟩ | ⟨differ, before⟩
    · exact (Function.update_self other found pages).symm
    · rw [Function.update_of_ne differ]
      exact holds.cache other found before
  · intro other high
    have differ : other ≠ page := fun same => absurd low (Nat.not_lt.mpr (same ▸ high))
    rw [Function.update_of_ne differ]
    exact holds.unused other high
  · rw [file]
    exact readHeader_storeSlot inside fits

/-- A page that does not fit is refused before anything changes. -/
theorem HoldsPages.storePage_overflow {body : PageBody} (holds : HoldsPages codec pt pages)
    (low : page < pt.pageCount) (overflows : ¬ Fits codec body) :
    PageTable.storePage codec page body pt = .error (.error (.storage "page overflow")) pt := by
  rw [PageTable.storePage, bind_eq_error]
  refine .inr ⟨pt, pt, get_eq_ok.mpr ⟨rfl, rfl⟩, ?_⟩
  rw [if_neg (Nat.not_le.mpr low), bind_eq_error]
  refine .inr ⟨(), pt, ensureMmap_of_mapped holds.mapped, ?_⟩
  rw [if_pos (Nat.not_le.mp overflows)]
  rfl

end Store

section Header

/-- What the header of the file says after it is written: a `u64` and a `u32`. -/
def writtenHeader (pt : PageTable) : Nat × Nat :=
  (fromLeBytes (toLeBytes 8 pt.nextId), fromLeBytes (toLeBytes 4 pt.pageCount))

omit [Runtime] in
theorem writtenHeader_eq (nextId : pt.nextId < 2 ^ 64) (pageCount : pt.pageCount < 2 ^ 32) :
    writtenHeader pt = (pt.nextId, pt.pageCount) := by
  rw [writtenHeader, fromLeBytes_toLeBytes nextId, fromLeBytes_toLeBytes pageCount]

/-- Writing the header leaves the pages alone. -/
theorem HoldsPages.writeHeader (holds : HoldsPages codec pt pages) :
    ∃ file, PageTable.writeHeader pt = .ok () { pt with file } ∧
      HoldsPages codec { pt with file } pages ∧
      PageTable.readHeader file = writtenHeader pt := by
  obtain ⟨bytes, file, size, slots⟩ := holds.slots
  set header := toLeBytes 8 pt.nextId ++ toLeBytes 4 pt.pageCount with encoded
  have width : header.length = 12 := by
    rw [encoded, List.length_append, length_toLeBytes, length_toLeBytes]
  have room : 16 ≤ bytes.length := by
    rw [size]
    exact Nat.le_add_right 16 _
  have inside : 0 + header.length ≤ bytes.length := by omega
  refine ⟨some (writeAt bytes 0 header), ?_, ⟨holds.mapped, ?_, holds.cache, holds.unused⟩, ?_⟩
  · rw [PageTable.writeHeader, bind_eq_ok]
    refine ⟨(), pt, ensureMmap_of_mapped holds.mapped, ?_⟩
    rw [bind_eq_ok]
    exact ⟨pt, pt, get_eq_ok.mpr ⟨rfl, rfl⟩, writeSlice_ok holds.mapped file inside⟩
  · refine ⟨_, rfl, (length_writeAt inside).trans size, fun page low => ?_⟩
    have beside : slotOf (writeAt bytes 0 header) page = slotOf bytes page := by
      apply readAt_writeAt_beside inside
      right
      rw [width, slotOffset, HEADER_BYTES]
      omega
    rw [beside]
    exact slots page low
  · have written : writeAt bytes 0 header =
        toLeBytes 8 pt.nextId ++ toLeBytes 4 pt.pageCount ++ bytes.drop header.length := by
      rw [writeAt, List.take_zero, List.nil_append, Nat.zero_add]
    have first := readAt_zero_append (toLeBytes 8 pt.nextId)
      (toLeBytes 4 pt.pageCount ++ bytes.drop header.length)
    have second := readAt_append_middle (toLeBytes 8 pt.nextId) (toLeBytes 4 pt.pageCount)
      (bytes.drop header.length)
    rw [length_toLeBytes, ← List.append_assoc, ← written] at first
    rw [length_toLeBytes, length_toLeBytes, ← written] at second
    have long : ¬ (writeAt bytes 0 header).length < HEADER_BYTES := by
      rw [length_writeAt inside]
      exact Nat.not_lt.mpr room
    simp only [PageTable.readHeader, if_neg long, first, second, writtenHeader]

end Header

section Growth

/-- The file grown to more pages: the slots it had, and empty ones. -/
theorem HoldsPages.grown (holds : HoldsPages codec pt pages) {bytes : List UInt8}
    (file : pt.file = some bytes) {count : Nat} (more : pt.pageCount ≤ count) :
    (PageTable.setLen bytes (PageTable.fileSizeForPages count)).length =
        PageTable.fileSizeForPages count ∧
      HoldsPages codec { pt with
        file := some (PageTable.setLen bytes (PageTable.fileSizeForPages count))
        pageCount := count } pages := by
  obtain ⟨bytes', file', size, slots⟩ := holds.slots
  obtain rfl : bytes' = bytes := Option.some.inj (file'.symm.trans file)
  have wider : PAGE_SLOT_BYTES * max pt.pageCount 1 ≤ PAGE_SLOT_BYTES * max count 1 :=
    Nat.mul_le_mul_left _ (max_le_max_right 1 more)
  have larger : bytes'.length ≤ PageTable.fileSizeForPages count := by
    rw [size]
    exact Nat.add_le_add_left wider _
  have extended : PageTable.setLen bytes' (PageTable.fileSizeForPages count) =
      bytes' ++ List.replicate (PageTable.fileSizeForPages count - bytes'.length) 0 := by
    rw [PageTable.setLen, List.take_of_length_le larger]
  have size' : (PageTable.setLen bytes' (PageTable.fileSizeForPages count)).length =
      PageTable.fileSizeForPages count := by
    rw [extended, List.length_append, List.length_replicate]
    omega
  refine ⟨size', holds.mapped, ⟨_, rfl, size', fun page low => ?_⟩, holds.cache,
    fun page high => holds.unused page (Nat.le_trans more high)⟩
  by_cases old : page < max pt.pageCount 1
  · have kept : slotOf (PageTable.setLen bytes' (PageTable.fileSizeForPages count)) page =
        slotOf bytes' page := by
      rw [extended]
      exact readAt_append _ (slot_inside size old)
    rw [kept]
    exact slots page old
  · have inside := slot_inside size' low
    rw [size'] at inside
    have behind : bytes'.length ≤ slotOffset page := by
      have := Nat.mul_le_mul_left PAGE_SLOT_BYTES (Nat.not_lt.mp old)
      rw [size, slotOffset, PageTable.fileSizeForPages]
      omega
    have zeros : slotOf (PageTable.setLen bytes' (PageTable.fileSizeForPages count)) page =
        List.replicate PAGE_SLOT_BYTES 0 := by
      rw [extended]
      exact readAt_append_replicate 0 behind (by omega)
    refine .unused ?_ (holds.unused page ?_)
    · rw [zeros, readAt, List.drop_zero, List.take_replicate]
      rfl
    · exact Nat.le_trans (Nat.le_max_left _ _) (Nat.not_lt.mp old)

/-- What growing a table to a page does: a page that is there changes nothing,
another one takes the table to it and has the header written. -/
structure GrownTo (page : Nat) (pt pt' : PageTable) : Prop where
  rowsPerPage : pt'.rowsPerPage = pt.rowsPerPage
  nextId : pt'.nextId = pt.nextId
  pageCount : pt'.pageCount = max pt.pageCount (page + 1)
  kept : page < pt.pageCount → PageTable.readHeader pt'.file = PageTable.readHeader pt.file
  written : pt.pageCount ≤ page → PageTable.readHeader pt'.file = writtenHeader pt'

/-- **Growing the table** to a page leaves the pages alone. -/
theorem HoldsPages.growIfNeeded (holds : HoldsPages codec pt pages) {page : Nat}
    (bound : page < 2 ^ 32 - 1) :
    ∃ pt', PageTable.growIfNeeded page pt = .ok () pt' ∧ HoldsPages codec pt' pages ∧
      GrownTo page pt pt' := by
  rw [PageTable.growIfNeeded]
  by_cases low : page < pt.pageCount
  · refine ⟨pt, ?_, holds, rfl, rfl, by omega, fun _ => rfl, fun high => by omega⟩
    rw [bind_eq_ok]
    refine ⟨pt, pt, get_eq_ok.mpr ⟨rfl, rfl⟩, ?_⟩
    rw [if_pos low]
    rfl
  · obtain ⟨bytes, file, -, -⟩ := holds.slots
    have count : (page + 1) % 2 ^ 32 = page + 1 := Nat.mod_eq_of_lt (by omega)
    have more : pt.pageCount ≤ page + 1 := by omega
    obtain ⟨size, grown⟩ := holds.grown file more
    obtain ⟨file', wrote, held, header⟩ := grown.writeHeader
    refine ⟨_, ?_, held, rfl, rfl, (Nat.max_eq_right more).symm, fun small => absurd small low,
      fun _ => header⟩
    rw [bind_eq_ok]
    refine ⟨pt, pt, get_eq_ok.mpr ⟨rfl, rfl⟩, ?_⟩
    rw [if_neg low, bind_eq_ok]
    refine ⟨(), _, modify_eq_ok.mpr rfl, ?_⟩
    rw [bind_eq_ok]
    refine ⟨(), _, modify_eq_ok.mpr ?_, wrote⟩
    have enough : ¬ (PageTable.setLen bytes (PageTable.fileSizeForPages (page + 1))).length <
        PageTable.fileSizeForPages (max (page + 1) 1) := by
      rw [size, show max (page + 1) 1 = page + 1 by omega]
      exact Nat.lt_irrefl _
    simp only [count, file, Option.getD_some, Bool.false_eq_true, if_false, if_neg enough,
      holds.mapped]

end Growth

section Opening

/-- The table that has just been created holds no rows. -/
theorem holdsPages_fresh (codec : PageCodec) (maxPages rowsPerPage : Nat) :
    HoldsPages codec (.open none maxPages rowsPerPage) fun _ => ∅ := by
  have size : (PageTable.setLen [] (PageTable.fileSizeForPages 1)).length =
      PageTable.fileSizeForPages 1 := by
    rw [PageTable.setLen, List.take_nil, List.nil_append, List.length_replicate]
    exact Nat.sub_zero _
  refine ⟨rfl, ⟨PageTable.setLen [] (PageTable.fileSizeForPages 1), rfl, size,
    fun page low => .unused ?_ rfl⟩, fun _ _ => nofun, fun _ _ => rfl⟩
  have inside := slot_inside size low
  rw [size] at inside
  have zeros : slotOf (PageTable.setLen [] (PageTable.fileSizeForPages 1)) page =
      List.replicate PAGE_SLOT_BYTES 0 := by
    rw [PageTable.setLen, List.take_nil]
    exact readAt_append_replicate 0 (Nat.zero_le _) (by rw [List.length_nil]; omega)
  rw [zeros, readAt, List.drop_zero, List.take_replicate]
  rfl

omit [Runtime] in
/-- The header of the file that has just been created is zero, and no header
the table wrote. -/
theorem readHeader_fresh (maxPages rowsPerPage : Nat) :
    PageTable.readHeader (PageTable.open none maxPages rowsPerPage).file = (0, 0) := by
  have zeros (start count : Nat) (inside : start + count ≤ PageTable.fileSizeForPages 1) :
      readAt (PageTable.setLen [] (PageTable.fileSizeForPages 1)) start count =
        List.replicate count 0 := by
    rw [PageTable.setLen, List.take_nil]
    exact readAt_append_replicate 0 (Nat.zero_le _) (by rw [List.length_nil]; omega)
  have long : ¬ (PageTable.setLen [] (PageTable.fileSizeForPages 1)).length < HEADER_BYTES := by
    rw [PageTable.setLen, List.take_nil, List.nil_append, List.length_replicate]
    decide
  change PageTable.readHeader (some (PageTable.setLen [] (PageTable.fileSizeForPages 1))) = _
  simp only [PageTable.readHeader, if_neg long, zeros 0 8 (by decide), zeros 8 4 (by decide)]
  rfl

/-- **Opening the file again** finds the pages, and the next id and the number
of pages that the header has. -/
theorem HoldsPages.reopen (holds : HoldsPages codec pt pages)
    (pageCount : (PageTable.readHeader pt.file).2 = pt.pageCount) (maxPages rowsPerPage : Nat) :
    HoldsPages codec (.open pt.file maxPages rowsPerPage) pages ∧
      (PageTable.open pt.file maxPages rowsPerPage).rowsPerPage = rowsPerPage ∧
      (PageTable.open pt.file maxPages rowsPerPage).nextId = (PageTable.readHeader pt.file).1 ∧
      (PageTable.open pt.file maxPages rowsPerPage).pageCount = pt.pageCount ∧
      (PageTable.open pt.file maxPages rowsPerPage).file = pt.file := by
  obtain ⟨bytes, file, size, slots⟩ := holds.slots
  have enough : ¬ bytes.length < PageTable.fileSizeForPages (max pt.pageCount 1) := by
    rw [size, PageTable.fileSizeForPages, PageTable.fileSizeForPages, Nat.max_assoc]
    exact Nat.lt_irrefl _
  have opened : PageTable.open pt.file maxPages rowsPerPage =
      { rowsPerPage, maxPages, nextId := (PageTable.readHeader pt.file).1,
        pageCount := pt.pageCount, cache := .new maxPages, file := some bytes, mapped := true } := by
    have mapped (f : PageTable → PageTable) (start : PageTable) :
        finalState (modify f : PageM PUnit) start = f start := rfl
    rw [file] at pageCount ⊢
    simp only [PageTable.open, PageTable.ensureMmap, mapped, Bool.false_eq_true, if_false,
      pageCount, if_neg enough]
  rw [opened]
  exact ⟨⟨rfl, ⟨bytes, rfl, size, slots⟩, fun _ _ => nofun, holds.unused⟩,
    rfl, rfl, rfl, file.symm⟩

end Opening

end MoodengSQL
