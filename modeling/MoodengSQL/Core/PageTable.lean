import MoodengSQL.Core.Storage
import MoodengSQL.Foundation.Effect
import MoodengSQL.Foundation.Slices

/-!
# Paged tables

A table in fixed-size slots of a file behind a small header, read through a
bounded cache of pages. The mapping of the file into memory is shared, so the
mapped bytes are the bytes of the file. Slices that leave the mapping panic.
`bincode` on pages is a parameter; it sees a page as its entries in the order in
which the hash map yields them. File-system calls succeed.
-/

namespace MoodengSQL

open Foundation Std

/-- `DEFAULT_ROWS_PER_PAGE`. -/
def DEFAULT_ROWS_PER_PAGE : Nat := 16

/-- `PAGE_SLOT_BYTES`. -/
def PAGE_SLOT_BYTES : Nat := 65536

/-- `size_of::<PageFileHeader>()`: a `u64` and a `u32`, padded. -/
def HEADER_BYTES : Nat := 16

/-- `PageBody`. -/
abbrev PageBody := Map Nat Row

/-- The serialization of pages. -/
structure PageCodec where
  serialize : List (Nat × Row) → List UInt8
  deserialize : List UInt8 → Except String (List (Nat × Row))

/-- `LruCache`. -/
structure LruCache where
  maxPages : Nat
  pages : Map Nat PageBody
  order : List Nat

namespace LruCache

/-- `LruCache::new`. -/
def new (maxPages : Nat) : LruCache := { maxPages, pages := ∅, order := [] }

/-- `LruCache::len`. -/
def len (cache : LruCache) : Nat := cache.pages.size

/-- `LruCache::touch`. -/
def touch (cache : LruCache) (pageId : Nat) : LruCache :=
  { cache with order := cache.order.erase pageId ++ [pageId] }

/-- `LruCache::get`. -/
def get (cache : LruCache) (pageId : Nat) : Option PageBody × LruCache :=
  match cache.pages[pageId]? with
  | none => (none, cache)
  | some body => (some body, cache.touch pageId)

/-- The eviction loop of `LruCache::insert`. -/
def evict (maxPages : Nat) : Map Nat PageBody → List Nat → Map Nat PageBody × List Nat
  | pages, [] => (pages, [])
  | pages, oldest :: order =>
      if maxPages ≤ pages.size then evict maxPages (pages.erase oldest) order
      else (pages, oldest :: order)

/-- `LruCache::insert`. -/
def insert (cache : LruCache) (pageId : Nat) (body : PageBody) : LruCache :=
  if pageId ∈ cache.pages then
    { cache with pages := cache.pages.insert pageId body }.touch pageId
  else
    let (pages, order) := evict cache.maxPages cache.pages cache.order
    { cache with pages := pages.insert pageId body, order }.touch pageId

end LruCache

/-- `PageTable`, with the file behind it and whether it is mapped. -/
structure PageTable where
  rowsPerPage : Nat
  maxPages : Nat
  nextId : Nat
  pageCount : Nat
  cache : LruCache
  file : Option (List UInt8)
  mapped : Bool

/-- Calls on a page table. -/
abbrev PageM := EStateM Failure PageTable

namespace PageTable

/-- `file_size_for_pages`. -/
def fileSizeForPages (pageCount : Nat) : Nat := HEADER_BYTES + PAGE_SLOT_BYTES * max pageCount 1

/-- `File::set_len`. -/
def setLen (bytes : List UInt8) (size : Nat) : List UInt8 :=
  bytes.take size ++ List.replicate (size - bytes.length) 0

/-- `ensure_mmap`. -/
def ensureMmap : PageM Unit :=
  modify fun pt =>
    if pt.mapped then pt
    else
      let minSize := fileSizeForPages (max pt.pageCount 1)
      let bytes := match pt.file with
        | none => setLen [] minSize
        | some bytes => if bytes.length < minSize then setLen bytes minSize else bytes
      { pt with file := some bytes, mapped := true }

/-- The bytes of the mapping. -/
def mapping : PageM (List UInt8) := do
  let pt ← get
  match pt.mapped, pt.file with
  | true, some bytes => return bytes
  | _, _ => throw (.panic "called `Option::unwrap()` on a `None` value")

/-- Read `map[offset..offset + count]`. -/
def slice (bytes : List UInt8) (offset count : Nat) : PageM (List UInt8) :=
  if offset + count ≤ bytes.length then return readAt bytes offset count
  else throw (.panic "range end index out of range")

/-- Write to `map[offset..offset + data.len()]`. -/
def writeSlice (offset : Nat) (data : List UInt8) : PageM Unit := do
  let bytes ← mapping
  if offset + data.length ≤ bytes.length then
    modify fun pt => { pt with file := some (writeAt bytes offset data) }
  else throw (.panic "range end index out of range")

/-- `read_header`, and what `open` takes when there is no file. -/
def readHeader : Option (List UInt8) → Nat × Nat
  | none => (1, 0)
  | some bytes =>
      if bytes.length < HEADER_BYTES then (1, 0)
      else (fromLeBytes (readAt bytes 0 8), fromLeBytes (readAt bytes 8 4))

/-- `write_header`. -/
def writeHeader : PageM Unit := do
  ensureMmap
  let pt ← get
  writeSlice 0 (toLeBytes 8 pt.nextId ++ toLeBytes 4 pt.pageCount)

/-- `PageTable::open` over the file at the path, if there is one. -/
def «open» (file : Option (List UInt8)) (maxPages rowsPerPage : Nat) : PageTable :=
  let (nextId, pageCount) := readHeader file
  let pt : PageTable :=
    { rowsPerPage, maxPages, nextId, pageCount, cache := .new maxPages, file, mapped := false }
  Effect.finalState ensureMmap pt

section Operations

variable [Runtime] (codec : PageCodec)

/-- `page_id`. The page number is cast to a `u32`. -/
def pageId (rowId rowsPerPage : Nat) : PageM Nat :=
  if rowId = 0 && Runtime.overflowChecks then
    throw (.panic "attempt to subtract with overflow")
  else if rowsPerPage = 0 then throw (.panic "attempt to divide by zero")
  else return (rowId + (2 ^ 64 - 1)) % 2 ^ 64 / rowsPerPage % 2 ^ 32

/-- The bytes of a page. -/
def encodePage (body : PageBody) : List UInt8 :=
  codec.serialize (Runtime.hashOrder.order "PageBody.rows" body.toList)

/-- The part of `load_page` behind the cache: read the slot of a page and cache
what it holds. An unused slot is an empty page. -/
def readSlot (pageId : Nat) : PageM PageBody := do
  ensureMmap
  let offset := HEADER_BYTES + PAGE_SLOT_BYTES * pageId
  let bytes ← mapping
  if offset + 4 > bytes.length then return ∅
  else
    let head ← slice bytes offset 4
    let len := fromLeBytes head
    if len = 0 ∨ offset + 4 + len > bytes.length then return ∅
    else
      let encoded ← slice bytes (offset + 4) len
      match codec.deserialize encoded with
      | .error message => throw (.error (.storage message))
      | .ok entries =>
          let body : PageBody := .ofList entries
          modify fun pt => { pt with cache := pt.cache.insert pageId body }
          return body

/-- `load_page`. -/
def loadPage (pageId : Nat) : PageM PageBody := do
  let pt ← get
  match pt.cache.get pageId with
  | (some body, cache) =>
      set { pt with cache }
      return body
  | (none, _) => readSlot codec pageId

/-- `store_page`. -/
def storePage (pageId : Nat) (body : PageBody) : PageM Unit := do
  let pt ← get
  if pageId ≥ pt.pageCount then
    throw (.error (.storage ("page " ++ toString pageId ++ " out of range")))
  else
    ensureMmap
    let encoded := encodePage codec body
    if encoded.length + 4 > PAGE_SLOT_BYTES then throw (.error (.storage "page overflow"))
    else
      let offset := HEADER_BYTES + PAGE_SLOT_BYTES * pageId
      writeSlice offset (List.replicate PAGE_SLOT_BYTES 0)
      writeSlice offset (toLeBytes 4 encoded.length)
      writeSlice (offset + 4) encoded
      modify fun pt => { pt with cache := pt.cache.insert pageId body }

/-- `grow_if_needed`. -/
def growIfNeeded (pageId : Nat) : PageM Unit := do
  let pt ← get
  if pageId < pt.pageCount then return
  else
    let newCount := (pageId + 1) % 2 ^ 32
    modify fun pt => { pt with
      mapped := false
      file := some (setLen (pt.file.getD []) (fileSizeForPages newCount))
      pageCount := newCount }
    ensureMmap
    writeHeader

/-- `put_row`. -/
def putRow (rowId : Nat) (row : Row) : PageM Unit := do
  let pageId ← pageId rowId (← get).rowsPerPage
  growIfNeeded pageId
  let body ← loadPage codec pageId
  storePage codec pageId (body.insert rowId row)

/-- `PageTable::insert`. -/
def insert (row : Row) : PageM Nat := do
  let id := (← get).nextId
  modify fun pt => { pt with nextId := pt.nextId + 1 }
  putRow codec id row
  writeHeader
  return id

/-- `PageTable::apply_insert`. -/
def applyInsert (rowId : Nat) (row : Row) : PageM Unit := do
  modify fun pt => { pt with nextId := if pt.nextId ≤ rowId then rowId + 1 else pt.nextId }
  putRow codec rowId row
  writeHeader
  return ()

/-- `PageTable::get`. -/
def get (rowId : Nat) : PageM (Option Row) := do
  let pt ← MonadState.get
  let pageId ← pageId rowId pt.rowsPerPage
  if pageId ≥ pt.pageCount then return none
  else
    let body ← loadPage codec pageId
    return body[rowId]?

/-- The page loop of `PageTable::scan`. -/
def collectPages : List Nat → PageM (List (Nat × Row))
  | [] => return []
  | pageId :: rest => do
      let body ← loadPage codec pageId
      let rows ← collectPages rest
      return Runtime.hashOrder.order "scan" body.toList ++ rows

/-- `sort_by_key(|(id, _)| *id)`, a stable sort. -/
def sortById (rows : List (Nat × Row)) : List (Nat × Row) :=
  rows.insertionSort fun a b => a.1 ≤ b.1

/-- `PageTable::scan`. -/
def scan : PageM (List (Nat × Row)) := do
  let rows ← collectPages codec (List.range (← MonadState.get).pageCount)
  return sortById rows

/-- The page loop of `PageTable::row_count`, which passes over pages it cannot
load. -/
def countPages : List Nat → Nat → PageM Nat
  | [], count => return count
  | pageId :: rest, count => do
      let size ← tryCatch (do return (← loadPage codec pageId).size) fun
        | .error _ => return 0
        | .panic reason => throw (.panic reason)
      countPages rest (count + size)

/-- `PageTable::row_count`. -/
def rowCount : PageM Nat := do
  countPages codec (List.range (← MonadState.get).pageCount) 0

/-- `PageTable::update`. -/
def update (rowId : Nat) (row : Row) : PageM Bool := do
  let pt ← MonadState.get
  let pageId ← pageId rowId pt.rowsPerPage
  if pageId ≥ pt.pageCount then return false
  else
    let body ← loadPage codec pageId
    if rowId ∈ body then
      storePage codec pageId (body.insert rowId row)
      return true
    else return false

/-- `PageTable::delete`. -/
def delete (rowId : Nat) : PageM Bool := do
  let pt ← MonadState.get
  let pageId ← pageId rowId pt.rowsPerPage
  if pageId ≥ pt.pageCount then return false
  else
    let body ← loadPage codec pageId
    if rowId ∈ body then
      storePage codec pageId (body.erase rowId)
      return true
    else return false

end Operations

end PageTable

end MoodengSQL
