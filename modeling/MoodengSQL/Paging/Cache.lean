import MoodengSQL.Core.PageTable
import MoodengSQL.Foundation.Recency

/-!
# The page cache

The cache keeps the pages that were used last. Its queue and its map are changed by
different routines; behind any calls they have the same pages, and these are the most
recent ones of the history of hits and inserts.
-/

namespace MoodengSQL

open Foundation Std

/-- A call of the cache. -/
inductive CacheCall where
  | get (pageId : Nat)
  | insert (pageId : Nat) (body : PageBody)

namespace LruCache

/-- What a call leaves. -/
def call (cache : LruCache) : CacheCall → LruCache
  | .get pageId => (cache.get pageId).2
  | .insert pageId body => cache.insert pageId body

/-- What calls leave, one after the other. -/
def run (cache : LruCache) (calls : List CacheCall) : LruCache := calls.foldl call cache

/-- The page that a call uses: that of a hit or of an insert. -/
def uses (cache : LruCache) : CacheCall → List Nat
  | .get pageId => if (cache.get pageId).1.isSome then [pageId] else []
  | .insert pageId _ => [pageId]

/-- The pages of the hits and inserts, one after the other. -/
def history : LruCache → List CacheCall → List Nat
  | _, [] => []
  | cache, call :: rest => cache.uses call ++ (cache.call call).history rest

end LruCache

/-- The body that an insert gives a page, or else the one it had. -/
def CacheCall.inserted (call : CacheCall) (pageId : Nat) (before : Option PageBody) :
    Option PageBody :=
  match call with
  | .get _ => before
  | .insert other body => if other = pageId then some body else before

/-- The body of the latest insert of a page. -/
def latestInserted (calls : List CacheCall) (pageId : Nat) : Option PageBody :=
  calls.foldl (fun before call => call.inserted pageId before) none

section Eviction

variable {maxPages oldest : Nat} {pages : Map Nat PageBody} {order rest : List Nat}

/-- With room, nothing is evicted. -/
theorem LruCache.evict_of_room (room : pages.size < maxPages) :
    LruCache.evict maxPages pages order = (pages, order) := by
  cases order with
  | nil => rfl
  | cons oldest rest =>
      unfold LruCache.evict
      exact if_neg (Nat.not_le.mpr room)

/-- In a full cache, the page at the front of the queue is evicted, and no other. -/
theorem LruCache.evict_of_full (full : pages.size = maxPages) (positive : 1 ≤ maxPages)
    (member : oldest ∈ pages) :
    LruCache.evict maxPages pages (oldest :: rest) = (pages.erase oldest, rest) := by
  unfold LruCache.evict
  rw [if_pos (Nat.le_of_eq full.symm)]
  apply LruCache.evict_of_room
  rw [ExtTreeMap.size_erase, if_pos (ExtTreeMap.mem_iff_contains.mp member)]
  omega

end Eviction

section Lookup

variable {cache : LruCache} {pageId : Nat} {body : PageBody}

theorem LruCache.get_of_none (missing : cache.pages[pageId]? = none) :
    cache.get pageId = (none, cache) := by
  unfold LruCache.get
  rw [missing]

theorem LruCache.get_of_some (cached : cache.pages[pageId]? = some body) :
    cache.get pageId = (some body, cache.touch pageId) := by
  unfold LruCache.get
  rw [cached]

theorem LruCache.call_get_of_none (missing : cache.pages[pageId]? = none) :
    cache.call (.get pageId) = cache :=
  congrArg Prod.snd (LruCache.get_of_none missing)

theorem LruCache.call_get_of_some (cached : cache.pages[pageId]? = some body) :
    cache.call (.get pageId) = cache.touch pageId :=
  congrArg Prod.snd (LruCache.get_of_some cached)

/-- A miss uses no page. -/
theorem LruCache.uses_get_of_none (missing : cache.pages[pageId]? = none) :
    cache.uses (.get pageId) = [] := by
  change (if (cache.get pageId).1.isSome then [pageId] else []) = []
  rw [LruCache.get_of_none missing]
  rfl

theorem LruCache.uses_get_of_some (cached : cache.pages[pageId]? = some body) :
    cache.uses (.get pageId) = [pageId] := by
  change (if (cache.get pageId).1.isSome then [pageId] else []) = [pageId]
  rw [LruCache.get_of_some cached]
  rfl

end Lookup

/-- The cache behind a history: its queue has the recent pages, its map the same ones,
each with the body of its latest insert. -/
structure LruCache.Keeps (cache : LruCache) (history : List Nat)
    (latest : Nat → Option PageBody) : Prop where
  order : cache.order = recent cache.maxPages history
  listed : ∀ pageId, pageId ∈ cache.order ↔ pageId ∈ cache.pages
  size : cache.pages.size = cache.order.length
  body : ∀ pageId ∈ cache.pages, cache.pages[pageId]? = latest pageId

namespace LruCache.Keeps

variable {cache : LruCache} {history : List Nat} {latest : Nat → Option PageBody} {pageId : Nat}

theorem nodup (keeps : cache.Keeps history latest) : cache.order.Nodup := by
  rw [keeps.order]
  exact recent_nodup _ _

theorem size_le (keeps : cache.Keeps history latest) : cache.pages.size ≤ cache.maxPages := by
  rw [keeps.size, keeps.order]
  exact length_recent_le _ _

/-- A page that is cached becomes the latest one. -/
theorem touch (keeps : cache.Keeps history latest) (cached : pageId ∈ cache.pages) :
    (cache.touch pageId).Keeps (history ++ [pageId]) latest := by
  have listed : pageId ∈ cache.order := (keeps.listed pageId).mpr cached
  refine ⟨?_, fun other => ?_, ?_, keeps.body⟩
  · have used := keeps.order ▸ listed
    change cache.order.erase pageId ++ [pageId] = recent cache.maxPages (history ++ [pageId])
    rw [recent_concat_of_mem used, keeps.order]
  · change other ∈ cache.order.erase pageId ++ [pageId] ↔ other ∈ cache.pages
    rw [List.mem_append, List.mem_singleton, keeps.nodup.mem_erase_iff, keeps.listed]
    constructor
    · rintro (⟨-, member⟩ | rfl)
      · exact member
      · exact cached
    · intro member
      by_cases same : other = pageId
      · exact .inr same
      · exact .inl ⟨same, member⟩
  · change cache.pages.size = (cache.order.erase pageId ++ [pageId]).length
    have positive := List.length_pos_of_mem listed
    rw [List.length_append, List.length_erase_of_mem listed, List.length_singleton, keeps.size]
    omega

/-- The bodies of the cache behind an insert. -/
theorem body_insert {pages : Map Nat PageBody} {body : PageBody}
    (bodies : ∀ pageId ∈ pages, pages[pageId]? = latest pageId) (other : Nat)
    (member : other ∈ pages.insert pageId body) :
    (pages.insert pageId body)[other]? =
      (CacheCall.insert pageId body).inserted other (latest other) := by
  change _ = if pageId = other then some body else latest other
  rw [ExtTreeMap.getElem?_insert]
  by_cases same : pageId = other
  · rw [if_pos (Std.compare_eq_iff_eq.mpr same), if_pos same]
  · rw [if_neg (mt Std.compare_eq_iff_eq.mp same), if_neg same]
    rcases ExtTreeMap.mem_insert.mp member with equal | before
    · exact absurd (Std.compare_eq_iff_eq.mp equal) same
    · exact bodies other before

/-- A page is inserted that is not cached, into the pages that eviction leaves. -/
theorem insert_new {pages : Map Nat PageBody} {order : List Nat} {body : PageBody}
    (absent : pageId ∉ order) (listed : ∀ other, other ∈ order ↔ other ∈ pages)
    (size : pages.size = order.length)
    (bodies : ∀ other ∈ pages, pages[other]? = latest other)
    (becomes : recent cache.maxPages (history ++ [pageId]) = order ++ [pageId]) :
    LruCache.Keeps
      ({ cache with pages := pages.insert pageId body, order }.touch pageId)
      (history ++ [pageId])
      (fun other => (CacheCall.insert pageId body).inserted other (latest other)) := by
  have same : order.erase pageId = order := List.erase_of_not_mem absent
  refine ⟨?_, fun other => ?_, ?_, body_insert bodies⟩
  · change order.erase pageId ++ [pageId] = recent cache.maxPages (history ++ [pageId])
    rw [same, becomes]
  · change other ∈ order.erase pageId ++ [pageId] ↔ other ∈ pages.insert pageId body
    rw [same, List.mem_append, List.mem_singleton, ExtTreeMap.mem_insert, Std.compare_eq_iff_eq,
      listed, or_comm, eq_comm]
  · change (pages.insert pageId body).size = (order.erase pageId ++ [pageId]).length
    rw [same, ExtTreeMap.size_insert, if_neg fun present => absent ((listed pageId).mpr
      (ExtTreeMap.mem_iff_contains.mpr present)), size,
      List.length_append, List.length_singleton]

/-- **An insert** makes its page the latest one, and evicts at most the page that was
not used for longest. -/
theorem insert (keeps : cache.Keeps history latest) (positive : 1 ≤ cache.maxPages)
    (body : PageBody) :
    (cache.insert pageId body).Keeps (history ++ [pageId])
      (fun other => (CacheCall.insert pageId body).inserted other (latest other)) := by
  unfold LruCache.insert
  by_cases cached : pageId ∈ cache.pages
  · rw [if_pos cached]
    have replaced : LruCache.Keeps { cache with pages := cache.pages.insert pageId body } history
        (fun other => (CacheCall.insert pageId body).inserted other (latest other)) := by
      refine ⟨keeps.order, fun other => ?_, ?_, body_insert keeps.body⟩
      · rw [keeps.listed, ExtTreeMap.mem_insert, Std.compare_eq_iff_eq]
        exact ⟨.inr, fun either => either.elim (fun same => same ▸ cached) id⟩
      · rw [ExtTreeMap.size_insert, if_pos (ExtTreeMap.mem_iff_contains.mp cached)]
        exact keeps.size
    exact replaced.touch (ExtTreeMap.mem_insert_self)
  · rw [if_neg cached]
    have absent : pageId ∉ cache.order := mt (keeps.listed pageId).mp cached
    have new : pageId ∉ recent cache.maxPages history := keeps.order ▸ absent
    rcases Nat.lt_or_eq_of_le keeps.size_le with room | full
    · rw [LruCache.evict_of_room room]
      apply insert_new absent keeps.listed keeps.size keeps.body
      rw [keeps.order, recent_concat_of_room new]
      rw [← keeps.order, ← keeps.size]
      exact room
    · rw [keeps.size] at full
      obtain ⟨oldest, rest, front⟩ : ∃ oldest rest, cache.order = oldest :: rest :=
        List.exists_cons_of_length_pos (full ▸ positive)
      have distinct := keeps.nodup
      have listed := keeps.listed
      have size := keeps.size
      rw [front] at distinct listed size absent
      have member : oldest ∈ cache.pages := (listed oldest).mp List.mem_cons_self
      rw [front, LruCache.evict_of_full (keeps.size.trans full) positive member]
      apply insert_new (mt (List.mem_cons_of_mem oldest) absent)
      · intro other
        rw [ExtTreeMap.mem_erase, ← listed, List.mem_cons, Ne, Std.compare_eq_iff_eq]
        constructor
        · intro later
          exact ⟨fun same => (List.nodup_cons.mp distinct).1 (same ▸ later), .inr later⟩
        · rintro ⟨differs, same | later⟩
          · exact absurd same.symm differs
          · exact later
      · rw [ExtTreeMap.size_erase, if_pos (ExtTreeMap.mem_iff_contains.mp member), size,
          List.length_cons, Nat.add_sub_cancel]
      · intro other remains
        obtain ⟨differs, before⟩ := ExtTreeMap.mem_erase.mp remains
        rw [ExtTreeMap.getElem?_erase, if_neg differs]
        exact keeps.body other before
      · apply recent_concat_of_full new
        · rw [← keeps.order, front]
        · rw [← keeps.order, full]

/-- **One call.** -/
theorem call (keeps : cache.Keeps history latest) (positive : 1 ≤ cache.maxPages)
    (next : CacheCall) :
    (cache.call next).Keeps (history ++ cache.uses next)
      (fun other => next.inserted other (latest other)) := by
  cases next with
  | insert pageId body => exact keeps.insert positive body
  | get pageId =>
      cases cached : cache.pages[pageId]? with
      | none =>
          rw [LruCache.call_get_of_none cached, LruCache.uses_get_of_none cached, List.append_nil]
          exact keeps
      | some body =>
          rw [LruCache.call_get_of_some cached, LruCache.uses_get_of_some cached]
          exact keeps.touch (Map.mem_of_getElem?_eq_some cached)

end LruCache.Keeps

@[simp] theorem LruCache.maxPages_call (cache : LruCache) (next : CacheCall) :
    (cache.call next).maxPages = cache.maxPages := by
  cases next with
  | get pageId =>
      cases cached : cache.pages[pageId]? with
      | none => rw [LruCache.call_get_of_none cached]
      | some body =>
          rw [LruCache.call_get_of_some cached]
          rfl
  | insert pageId body =>
      change (cache.insert pageId body).maxPages = cache.maxPages
      unfold LruCache.insert
      split
      · rfl
      · rfl

/-- Calls, one after the other. -/
theorem LruCache.Keeps.run {cache : LruCache} {history : List Nat}
    {latest : Nat → Option PageBody} (keeps : cache.Keeps history latest)
    (positive : 1 ≤ cache.maxPages) (calls : List CacheCall) :
    (cache.run calls).Keeps (history ++ cache.history calls)
      (fun other => calls.foldl (fun before call => call.inserted other before)
        (latest other)) ∧
      (cache.run calls).maxPages = cache.maxPages := by
  induction calls generalizing cache history latest with
  | nil =>
      rw [LruCache.history, List.append_nil]
      exact ⟨keeps, rfl⟩
  | cons next rest ih =>
      have stepped := keeps.call positive next
      obtain ⟨later, bound⟩ := ih stepped (by rwa [LruCache.maxPages_call])
      rw [LruCache.history, ← List.append_assoc]
      exact ⟨later, bound.trans (LruCache.maxPages_call cache next)⟩

/-- **The cache is a true LRU**: its queue lists every cached page once, there are at
most `max_pages` of them, they are the last distinct pages among the hits and inserts,
and `get` returns the body of the latest insert. -/
theorem lru_keeps_recent (maxPages : Nat) (positive : 1 ≤ maxPages) (calls : List CacheCall) :
    let cache := (LruCache.new maxPages).run calls
    cache.order.Nodup ∧ (∀ pageId, pageId ∈ cache.order ↔ pageId ∈ cache.pages) ∧
      cache.len ≤ maxPages ∧
      cache.order = recent maxPages ((LruCache.new maxPages).history calls) ∧
      ∀ pageId, (cache.get pageId).1 =
        if pageId ∈ cache.pages then latestInserted calls pageId else none := by
  intro cache
  have empty : (LruCache.new maxPages).Keeps [] (fun _ => none) :=
    ⟨(recent_nil _).symm, fun _ => iff_of_false List.not_mem_nil ExtTreeMap.not_mem_empty, rfl,
      fun _ member => absurd member ExtTreeMap.not_mem_empty⟩
  obtain ⟨keeps, bound⟩ := empty.run positive calls
  have order := keeps.order
  have size := keeps.size_le
  rw [bound] at order size
  refine ⟨keeps.nodup, keeps.listed, size, order, fun pageId => ?_⟩
  cases cached : cache.pages[pageId]? with
  | none =>
      have missing : pageId ∉ cache.pages := fun member => by
        rw [ExtTreeMap.getElem?_eq_some_getElem member] at cached
        cases cached
      rw [LruCache.get_of_none cached, if_neg missing]
  | some body =>
      have member := Map.mem_of_getElem?_eq_some cached
      rw [LruCache.get_of_some cached, if_pos member, ← cached]
      exact keeps.body pageId member

/-- A cache of two pages: a hit keeps the first page, and the second one is evicted. -/
theorem lru_keeps_recent_two :
    (((LruCache.new 2).run [.insert 1 ∅, .insert 2 ∅, .get 1, .insert 3 ∅]).order =
      recent 2 [1, 2, 1, 3]) ∧ recent 2 [1, 2, 1, 3] = [1, 3] :=
  ⟨(lru_keeps_recent 2 (by decide) [.insert 1 ∅, .insert 2 ∅, .get 1, .insert 3 ∅]).2.2.2.1,
    by decide⟩

end MoodengSQL
