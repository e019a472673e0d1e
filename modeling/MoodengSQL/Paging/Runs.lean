import MoodengSQL.Paging.Calls
import MoodengSQL.Paging.Refinement

/-!
# Runs of a paged table

The pages a table holds after any operations, refused ones included, and what
the header of its file says then. The header is written behind a row that has
been put and when the table grows, and at no other time.
-/

namespace MoodengSQL

open Foundation Foundation.Effect Std

variable [Runtime] (codec : PageCodec) (rowsPerPage : Nat)

/-- The next id, the number of pages and the pages of a table. -/
structure PagedRows where
  nextId : Nat
  pageCount : Nat
  pages : Nat → PageBody

namespace PagedRows

omit [Runtime] in
/-- A table that has just been created. -/
def fresh : PagedRows := { nextId := 1, pageCount := 0, pages := fun _ => ∅ }

/-- The page of a row with the row. -/
def withRow (data : PagedRows) (rowId : Nat) (row : Row) : PageBody :=
  (data.pages (pageNumber rowsPerPage rowId)).insert rowId row

/-- The page of a row is replaced, if the new one fits. -/
def store (data : PagedRows) (rowId : Nat) (body : PageBody) : PagedRows :=
  if Fits codec body then
    { data with pages := Function.update data.pages (pageNumber rowsPerPage rowId) body }
  else data

/-- A row is put, behind the growth of the table. -/
def put (data : PagedRows) (rowId : Nat) (row : Row) : PagedRows :=
  if HasPage rowsPerPage rowId then
    { data with pageCount := max data.pageCount (pageNumber rowsPerPage rowId + 1) }.store
      codec rowsPerPage rowId (data.withRow rowsPerPage rowId row)
  else data

/-- A row that is there has its page changed. -/
def change (data : PagedRows) (rowId : Nat) (change : PageBody → PageBody) : PagedRows :=
  let body := data.pages (pageNumber rowsPerPage rowId)
  if HasPage rowsPerPage rowId ∧ rowId ∈ body then
    data.store codec rowsPerPage rowId (change body)
  else data

/-- The row an operation puts, and the next id while it does. -/
def puts (data : PagedRows) : BackendOp → Option (Nat × Row × Nat)
  | .insert row => some (data.nextId, row, data.nextId + 1)
  | .applyInsert rowId row =>
      some (rowId, row, if data.nextId ≤ rowId then rowId + 1 else data.nextId)
  | _ => none

/-- What an operation leaves, whatever it answers. -/
def step (data : PagedRows) : BackendOp → PagedRows
  | .insert row =>
      { data with nextId := data.nextId + 1 }.put codec rowsPerPage data.nextId row
  | .applyInsert rowId row =>
      { data with nextId := if data.nextId ≤ rowId then rowId + 1 else data.nextId }.put
        codec rowsPerPage rowId row
  | .update rowId row => data.change codec rowsPerPage rowId (·.insert rowId row)
  | .delete rowId => data.change codec rowsPerPage rowId (·.erase rowId)
  | .get _ => data
  | .scan => data
  | .rowCount => data

/-- What operations leave, one after the other. -/
def run (data : PagedRows) (ops : List BackendOp) : PagedRows :=
  ops.foldl (PagedRows.step codec rowsPerPage) data

/-- The operation has the header written: it puts a row that fits its page, or
it makes the table grow. -/
def WritesHeader (data : PagedRows) (op : BackendOp) : Prop :=
  ∃ put ∈ data.puts op, HasPage rowsPerPage put.1 ∧
    (data.pageCount ≤ pageNumber rowsPerPage put.1 ∨
      Fits codec (data.withRow rowsPerPage put.1 put.2.1))

/-- The operation raises the next id. -/
def RaisesNextId (data : PagedRows) (op : BackendOp) : Prop :=
  ∃ put ∈ data.puts op, data.nextId < put.2.2

/-- The pages that an operation tries to store. -/
def Stores (data : PagedRows) (op : BackendOp) (body : PageBody) : Prop :=
  (∃ put ∈ data.puts op, body = data.withRow rowsPerPage put.1 put.2.1) ∨
    (∃ rowId row, op = .update rowId row ∧
      body = (data.pages (pageNumber rowsPerPage rowId)).insert rowId row) ∨
    ∃ rowId, op = .delete rowId ∧ body = (data.pages (pageNumber rowsPerPage rowId)).erase rowId

/-- No arithmetic of the operation overflows, and a page that it stores is
decoded back. -/
structure Allows (data : PagedRows) (op : BackendOp) : Prop where
  nextId : ∀ put ∈ data.puts op, put.2.2 < 2 ^ 64
  page : ∀ put ∈ data.puts op, pageNumber rowsPerPage put.1 + 1 < 2 ^ 32
  decodes : ∀ body, data.Stores rowsPerPage op body → Fits codec body → Decodes codec body

/-- The same of operations one after the other. -/
def AllowsAll : PagedRows → List BackendOp → Prop
  | _, [] => True
  | data, op :: rest =>
      data.Allows codec rowsPerPage op ∧ (data.step codec rowsPerPage op).AllowsAll rest

end PagedRows

/-- The page table is in the state that the pages describe. -/
structure Stands (pt : PageTable) (data : PagedRows) : Prop where
  holds : HoldsPages codec pt data.pages
  rowsPerPage : pt.rowsPerPage = rowsPerPage
  nextId : pt.nextId = data.nextId
  pageCount : pt.pageCount = data.pageCount
  nextIdSmall : data.nextId < 2 ^ 64
  pageCountSmall : data.pageCount < 2 ^ 32

variable {codec rowsPerPage} {pt : PageTable} {data : PagedRows}

theorem stands_fresh (maxPages : Nat) :
    Stands codec rowsPerPage (.open none maxPages rowsPerPage) .fresh :=
  ⟨holdsPages_fresh codec maxPages rowsPerPage, rfl, rfl, rfl, by decide, by decide⟩

/-- An operation, and whether it has the header written. -/
structure StepsTo (codec : PageCodec) (rowsPerPage : Nat) (pt pt' : PageTable) (next : PagedRows)
    (writes : Prop) : Prop where
  stands : Stands codec rowsPerPage pt' next
  written : writes → PageTable.readHeader pt'.file = (next.nextId, next.pageCount)
  kept : ¬ writes → PageTable.readHeader pt'.file = PageTable.readHeader pt.file ∧
    pt'.pageCount = pt.pageCount

/-- A call that changes the cache alone. -/
theorem Stands.stepsTo_cache (stands : Stands codec rowsPerPage pt data) {cache : LruCache}
    (held : HoldsPages codec { pt with cache } data.pages) {writes : Prop} (not : ¬ writes) :
    StepsTo codec rowsPerPage pt { pt with cache } data writes where
  stands := ⟨held, stands.rowsPerPage, stands.nextId, stands.pageCount, stands.nextIdSmall,
    stands.pageCountSmall⟩
  written did := absurd did not
  kept _ := ⟨rfl, rfl⟩

/-- The page of a row is changed, or nothing but the cache is. -/
theorem Stands.change (stands : Stands codec rowsPerPage pt data) {rowId : Nat}
    {change : PageBody → PageBody}
    (decodes : Fits codec (change (data.pages (pageNumber rowsPerPage rowId))) →
      Decodes codec (change (data.pages (pageNumber rowsPerPage rowId)))) {writes : Prop}
    (not : ¬ writes) :
    StepsTo codec rowsPerPage pt (finalState (changeRow codec rowId change) pt)
      (data.change codec rowsPerPage rowId change) writes := by
  have holds := stands.holds
  obtain rfl := stands.rowsPerPage
  unfold PagedRows.change PagedRows.store
  by_cases numbered : HasPage pt.rowsPerPage rowId
  · by_cases present : rowId ∈ data.pages (pageNumber pt.rowsPerPage rowId)
    · rw [if_pos ⟨numbered, present⟩]
      by_cases fits : Fits codec (change (data.pages (pageNumber pt.rowsPerPage rowId)))
      · obtain ⟨file, cache, changed, held, header⟩ :=
          holds.changeRow_present numbered change present fits (decodes fits)
        rw [if_pos fits, finalState_of_ok changed]
        exact ⟨⟨held, rfl, stands.nextId, stands.pageCount, stands.nextIdSmall,
          stands.pageCountSmall⟩, fun did => absurd did not, fun _ => ⟨header, rfl⟩⟩
      · obtain ⟨cache, refused, held⟩ := holds.changeRow_overflow numbered change present fits
        rw [if_neg fits, finalState_of_error refused]
        exact stands.stepsTo_cache held not
    · obtain ⟨cache, kept, held⟩ := holds.changeRow_absent numbered change present
      rw [if_neg fun both => present both.2, finalState_of_ok kept]
      exact stands.stepsTo_cache held not
  · obtain ⟨reason, panics⟩ := pageId_panics numbered
    have same : finalState (changeRow codec rowId change) pt = pt := by
      unfold changeRow
      rw [finalState_bind_of_ok (get_eq_ok.mpr ⟨rfl, rfl⟩), finalState_bind_of_error (panics pt)]
    rw [if_neg fun both => numbered both.1, same]
    exact stands.stepsTo_cache holds not

/-- A row is put and the header written: what `insert` and `apply_insert` have
in common. -/
def putRowAndHeader (codec : PageCodec) (rowId : Nat) (row : Row) : PageM Unit := do
  PageTable.putRow codec rowId row
  PageTable.writeHeader

theorem finalState_putRowAndHeader {α : Type} (a : α) (rowId : Nat) (row : Row) (pt : PageTable) :
    finalState (do
      PageTable.putRow codec rowId row
      PageTable.writeHeader
      return a) pt = finalState (putRowAndHeader codec rowId row) pt :=
  finalState_bind_congr (fun _ mid => finalState_bind_pure PageTable.writeHeader (fun _ => a) mid) pt

theorem Stands.put (stands : Stands codec rowsPerPage pt data) {rowId : Nat} {row : Row}
    (page : pageNumber rowsPerPage rowId + 1 < 2 ^ 32)
    (decodes : Fits codec (data.withRow rowsPerPage rowId row) →
      Decodes codec (data.withRow rowsPerPage rowId row)) :
    StepsTo codec rowsPerPage pt (finalState (putRowAndHeader codec rowId row) pt)
      (data.put codec rowsPerPage rowId row)
      (HasPage rowsPerPage rowId ∧ (data.pageCount ≤ pageNumber rowsPerPage rowId ∨
        Fits codec (data.withRow rowsPerPage rowId row))) := by
  have holds := stands.holds
  have pageCount := stands.pageCount
  have pageCountSmall := stands.pageCountSmall
  obtain rfl := stands.rowsPerPage
  unfold PagedRows.put PagedRows.store putRowAndHeader
  by_cases numbered : HasPage pt.rowsPerPage rowId
  · rw [if_pos numbered]
    by_cases fits : Fits codec (data.withRow pt.rowsPerPage rowId row)
    · obtain ⟨mid, put, held, grown⟩ := holds.putRow numbered (by omega) fits (decodes fits)
      obtain ⟨file, wrote, held', header⟩ := held.writeHeader
      have count := grown.pageCount
      have small : mid.nextId < 2 ^ 64 := by
        rw [grown.nextId, stands.nextId]
        exact stands.nextIdSmall
      rw [if_pos fits, finalState_bind_of_ok put, finalState_of_ok wrote]
      refine ⟨⟨held', grown.rowsPerPage, grown.nextId.trans stands.nextId, ?_,
        stands.nextIdSmall, ?_⟩, fun _ => ?_, fun not => absurd ⟨numbered, .inr fits⟩ not⟩
      · exact count.trans (by rw [pageCount])
      · change max data.pageCount _ < _
        omega
      · rw [header, writtenHeader_eq small (by omega), count, grown.nextId, stands.nextId, pageCount]
    · obtain ⟨mid, refused, held, grown⟩ := holds.putRow_overflow numbered (by omega) fits
      have count := grown.pageCount
      have small : mid.nextId < 2 ^ 64 := by
        rw [grown.nextId, stands.nextId]
        exact stands.nextIdSmall
      rw [if_neg fits, finalState_bind_of_error refused]
      refine ⟨⟨held, grown.rowsPerPage, grown.nextId.trans stands.nextId, ?_,
        stands.nextIdSmall, ?_⟩, fun did => ?_, fun not => ?_⟩
      · exact count.trans (by rw [pageCount])
      · change max data.pageCount _ < _
        omega
      · have new : pt.pageCount ≤ pageNumber pt.rowsPerPage rowId :=
          pageCount ▸ did.2.resolve_right fits
        rw [grown.written new, writtenHeader_eq small (by omega), count, grown.nextId,
          stands.nextId, pageCount]
      · have old : pageNumber pt.rowsPerPage rowId < pt.pageCount := by
          by_contra new
          exact not ⟨numbered, .inl (pageCount ▸ Nat.not_lt.mp new)⟩
        exact ⟨grown.kept old, by omega⟩
  · obtain ⟨reason, panics⟩ := pageId_panics numbered
    have same : finalState (do PageTable.putRow codec rowId row; PageTable.writeHeader) pt = pt := by
      have failed : PageTable.putRow codec rowId row pt = .error (.panic reason) pt := by
        unfold PageTable.putRow
        rw [get_bind, bind_eq_error]
        exact .inl (panics pt)
      exact finalState_bind_of_error failed
    rw [if_neg numbered, same]
    exact ⟨stands, fun did => absurd did.1 numbered, fun _ => ⟨rfl, rfl⟩⟩

/-- **An operation** leaves the pages that its step gives, and writes the header
or leaves it as it is. -/
theorem Stands.perform (stands : Stands codec rowsPerPage pt data) {op : BackendOp}
    (allows : data.Allows codec rowsPerPage op) :
    StepsTo codec rowsPerPage pt (finalState (PageTable.perform codec op) pt)
      (data.step codec rowsPerPage op) (data.WritesHeader codec rowsPerPage op) := by
  have puts (rowId : Nat) (row : Row) (nextId : Nat)
      (put : data.puts op = some (rowId, row, nextId))
      (performs : finalState (PageTable.perform codec op) pt =
        finalState (putRowAndHeader codec rowId row) { pt with nextId }) :
      StepsTo codec rowsPerPage pt (finalState (PageTable.perform codec op) pt)
        (data.step codec rowsPerPage op) (data.WritesHeader codec rowsPerPage op) := by
    have raised : Stands codec rowsPerPage { pt with nextId } { data with nextId } :=
      ⟨⟨stands.holds.mapped, stands.holds.slots, stands.holds.cache, stands.holds.unused⟩,
        stands.rowsPerPage, rfl, stands.pageCount, allows.nextId _ put, stands.pageCountSmall⟩
    have stepped := raised.put (allows.page _ put) (allows.decodes _ (.inl ⟨_, put, rfl⟩))
    have writes : data.WritesHeader codec rowsPerPage op ↔
        HasPage rowsPerPage rowId ∧ (data.pageCount ≤ pageNumber rowsPerPage rowId ∨
          Fits codec (data.withRow rowsPerPage rowId row)) := by
      unfold PagedRows.WritesHeader
      rw [put]
      simp only [Option.mem_some_iff, exists_eq_left']
    have stepsTo : data.step codec rowsPerPage op =
        { data with nextId }.put codec rowsPerPage rowId row := by
      cases op <;> cases put <;> rfl
    rw [performs, stepsTo]
    exact ⟨stepped.stands, fun did => stepped.written (writes.mp did),
      fun not => stepped.kept fun did => not (writes.mpr did)⟩
  have never (put : data.puts op = none) : ¬ data.WritesHeader codec rowsPerPage op := by
    unfold PagedRows.WritesHeader
    rw [put]
    rintro ⟨_, none, -⟩
    cases none
  cases op with
  | insert row =>
      apply puts pt.nextId row (pt.nextId + 1) (by rw [PagedRows.puts, stands.nextId])
      unfold PageTable.perform PageTable.insert
      rw [finalState_bind_pure, finalState_bind_of_ok (get_eq_ok.mpr ⟨rfl, rfl⟩),
        finalState_modify_bind]
      exact finalState_putRowAndHeader pt.nextId pt.nextId row _
  | applyInsert rowId row =>
      apply puts rowId row _ rfl
      unfold PageTable.perform
      rw [finalState_bind_pure]
      unfold PageTable.applyInsert
      rw [finalState_modify_bind, ← stands.nextId]
      exact finalState_putRowAndHeader () rowId row _
  | get rowId =>
      have unwritten := never rfl
      unfold PageTable.perform
      rw [finalState_bind_pure]
      by_cases numbered : HasPage pt.rowsPerPage rowId
      · obtain ⟨cache, got, held⟩ := stands.holds.get numbered
        rw [finalState_of_ok got]
        exact stands.stepsTo_cache held unwritten
      · obtain ⟨reason, panics⟩ := pageId_panics numbered
        have same : finalState (PageTable.get codec rowId) pt = pt := by
          unfold PageTable.get
          rw [finalState_bind_of_ok (get_eq_ok.mpr ⟨rfl, rfl⟩),
            finalState_bind_of_error (panics pt)]
        rw [same]
        exact stands.stepsTo_cache stands.holds unwritten
  | scan =>
      obtain ⟨cache, scanned, held⟩ := stands.holds.scan
      unfold PageTable.perform
      rw [finalState_bind_pure, finalState_of_ok scanned]
      exact stands.stepsTo_cache held (never rfl)
  | rowCount =>
      obtain ⟨cache, counted, held⟩ := stands.holds.rowCount
      unfold PageTable.perform
      rw [finalState_bind_pure, finalState_of_ok counted]
      exact stands.stepsTo_cache held (never rfl)
  | delete rowId =>
      unfold PageTable.perform
      rw [finalState_bind_pure, delete_eq_changeRow]
      exact stands.change (allows.decodes _ (.inr (.inr ⟨rowId, rfl, rfl⟩))) (never rfl)
  | update rowId row =>
      unfold PageTable.perform
      rw [finalState_bind_pure, update_eq_changeRow]
      exact stands.change (allows.decodes _ (.inr (.inl ⟨rowId, row, rfl, rfl⟩))) (never rfl)

/-- The table behind operations, one after the other, whatever they answer. -/
def PageTable.after (codec : PageCodec) (ops : List BackendOp) (pt : PageTable) : PageTable :=
  ops.foldl (fun pt op => finalState (PageTable.perform codec op) pt) pt

@[simp] theorem PageTable.after_nil (pt : PageTable) : pt.after codec [] = pt := rfl

/-- **Operations** leave the pages that their steps give. -/
theorem Stands.after {ops : List BackendOp} (stands : Stands codec rowsPerPage pt data)
    (allows : data.AllowsAll codec rowsPerPage ops) :
    Stands codec rowsPerPage (pt.after codec ops) (data.run codec rowsPerPage ops) := by
  induction ops generalizing pt data with
  | nil => exact stands
  | cons op rest ih => exact ih (stands.perform allows.1).stands allows.2

section NextId

/-- The next id behind an operation. -/
theorem PagedRows.nextId_step (op : BackendOp) :
    (data.step codec rowsPerPage op).nextId =
      ((data.puts op).map fun put => put.2.2).getD data.nextId := by
  have store (start : PagedRows) (rowId : Nat) (body : PageBody) :
      (start.store codec rowsPerPage rowId body).nextId = start.nextId := by
    unfold PagedRows.store
    split <;> rfl
  have put (start : PagedRows) (rowId : Nat) (row : Row) :
      (start.put codec rowsPerPage rowId row).nextId = start.nextId := by
    unfold PagedRows.put
    split
    · rw [store]
    · rfl
  have change (rowId : Nat) (f : PageBody → PageBody) :
      (data.change codec rowsPerPage rowId f).nextId = data.nextId := by
    unfold PagedRows.change
    dsimp only
    split
    · rw [store]
    · rfl
  cases op with
  | insert row => exact put _ _ row
  | applyInsert rowId row => exact put _ rowId row
  | update rowId row => exact change rowId _
  | delete rowId => exact change rowId _
  | get rowId => rfl
  | scan => rfl
  | rowCount => rfl

omit [Runtime] in
/-- No operation lowers the next id. -/
theorem PagedRows.le_of_puts {op : BackendOp} {put : Nat × Row × Nat}
    (puts : put ∈ data.puts op) : data.nextId ≤ put.2.2 := by
  cases op with
  | insert row =>
      obtain rfl := Option.mem_some_iff.mp puts
      exact Nat.le_succ _
  | applyInsert rowId row =>
      obtain rfl := Option.mem_some_iff.mp puts
      dsimp only
      split <;> omega
  | _ => cases puts

/-- An operation that does not raise the next id leaves it as it is. -/
theorem PagedRows.nextId_step_of_not_raises {op : BackendOp} (kept : ¬ data.RaisesNextId op) :
    (data.step codec rowsPerPage op).nextId = data.nextId := by
  rw [PagedRows.nextId_step]
  cases puts : data.puts op with
  | none => rfl
  | some put =>
      by_contra differs
      exact kept ⟨put, puts, Nat.lt_of_le_of_ne (PagedRows.le_of_puts puts) (Ne.symm differs)⟩

theorem PagedRows.nextId_step_of_raises {op : BackendOp} (raises : data.RaisesNextId op) :
    data.nextId < (data.step codec rowsPerPage op).nextId := by
  obtain ⟨put, puts, raised⟩ := raises
  rw [PagedRows.nextId_step, Option.mem_def.mp puts]
  exact raised

theorem PagedRows.nextId_le_run (ops : List BackendOp) :
    data.nextId ≤ (data.run codec rowsPerPage ops).nextId := by
  induction ops generalizing data with
  | nil => exact Nat.le_refl _
  | cons op rest ih =>
      refine Nat.le_trans ?_ ih
      by_cases raises : data.RaisesNextId op
      · exact Nat.le_of_lt (PagedRows.nextId_step_of_raises raises)
      · exact Nat.le_of_eq (PagedRows.nextId_step_of_not_raises raises).symm

end NextId

section Entries

/-- A row on a page behind an operation was there before, or was put now. -/
theorem PagedRows.mem_step {op : BackendOp} {page rowId : Nat}
    (member : rowId ∈ (data.step codec rowsPerPage op).pages page) :
    rowId ∈ data.pages page ∨ ∃ put ∈ data.puts op, rowId = put.1 ∧
      HasPage rowsPerPage rowId ∧ pageNumber rowsPerPage rowId = page := by
  have store (start : PagedRows) (target : Nat) (body : PageBody)
      (member : rowId ∈ (start.store codec rowsPerPage target body).pages page) :
      rowId ∈ start.pages page ∨ pageNumber rowsPerPage target = page ∧ rowId ∈ body := by
    unfold PagedRows.store at member
    split at member
    · dsimp only at member
      by_cases here : page = pageNumber rowsPerPage target
      · subst here
        rw [Function.update_self] at member
        exact .inr ⟨rfl, member⟩
      · rw [Function.update_of_ne here] at member
        exact .inl member
    · exact .inl member
  have put (start : PagedRows) (target : Nat) (row : Row)
      (member : rowId ∈ (start.put codec rowsPerPage target row).pages page) :
      rowId ∈ start.pages page ∨ rowId = target ∧ HasPage rowsPerPage rowId ∧
        pageNumber rowsPerPage rowId = page := by
    unfold PagedRows.put at member
    split at member
    · rename_i numbered
      rcases store _ target _ member with before | ⟨rfl, stored⟩
      · exact .inl before
      · rcases ExtTreeMap.mem_insert.mp stored with same | before
        · obtain rfl := LawfulEqOrd.eq_of_compare same
          exact .inr ⟨rfl, numbered, rfl⟩
        · exact .inl before
    · exact .inl member
  have change (target : Nat) (f : PageBody → PageBody)
      (keeps : ∀ body : PageBody, target ∈ body → rowId ∈ f body → rowId ∈ body)
      (member : rowId ∈ (data.change codec rowsPerPage target f).pages page) :
      rowId ∈ data.pages page := by
    unfold PagedRows.change at member
    dsimp only at member
    split at member
    · rename_i present
      rcases store _ target _ member with before | ⟨rfl, stored⟩
      · exact before
      · exact keeps _ present.2 stored
    · exact member
  cases op with
  | insert row => exact (put _ _ row member).imp_right fun now => ⟨_, rfl, now⟩
  | applyInsert target row => exact (put _ target row member).imp_right fun now => ⟨_, rfl, now⟩
  | update target row =>
      refine .inl (change target _ (fun body present inserted => ?_) member)
      rcases ExtTreeMap.mem_insert.mp inserted with same | before
      · exact LawfulEqOrd.eq_of_compare same ▸ present
      · exact before
  | delete target =>
      exact .inl (change target _ (fun body _ => ExtTreeMap.mem_of_mem_erase) member)
  | get rowId => exact .inl member
  | scan => exact .inl member
  | rowCount => exact .inl member

/-- The rows lie on the pages computed for them. -/
def PagedRows.Placed (rowsPerPage : Nat) (data : PagedRows) : Prop :=
  ∀ page, ∀ rowId ∈ data.pages page,
    HasPage rowsPerPage rowId ∧ pageNumber rowsPerPage rowId = page

/-- The ids of the rows are below the next id. -/
def PagedRows.Bounded (data : PagedRows) : Prop :=
  ∀ page, ∀ rowId ∈ data.pages page, rowId < data.nextId

theorem PagedRows.placed_fresh : PagedRows.fresh.Placed rowsPerPage :=
  fun _ _ member => absurd member ExtTreeMap.not_mem_empty

omit [Runtime] in
theorem PagedRows.bounded_fresh : PagedRows.fresh.Bounded :=
  fun _ _ member => absurd member ExtTreeMap.not_mem_empty

theorem PagedRows.Placed.step (placed : data.Placed rowsPerPage) (op : BackendOp) :
    (data.step codec rowsPerPage op).Placed rowsPerPage := by
  intro page rowId member
  rcases PagedRows.mem_step member with before | ⟨_, _, _, numbered, here⟩
  · exact placed page rowId before
  · exact ⟨numbered, here⟩

theorem PagedRows.Bounded.step (bounded : data.Bounded) (op : BackendOp) :
    (data.step codec rowsPerPage op).Bounded := by
  intro page rowId member
  rw [PagedRows.nextId_step]
  rcases PagedRows.mem_step member with before | ⟨put, puts, rfl, -, -⟩
  · have low := bounded page rowId before
    cases puts : data.puts op with
    | none => exact low
    | some put => exact Nat.lt_of_lt_of_le low (PagedRows.le_of_puts puts)
  · rw [Option.mem_def.mp puts]
    change put.1 < put.2.2
    cases op with
    | insert row =>
        obtain rfl := Option.mem_some_iff.mp puts
        exact Nat.lt_succ_self _
    | applyInsert rowId row =>
        obtain rfl := Option.mem_some_iff.mp puts
        dsimp only
        split <;> omega
    | _ => cases puts

theorem PagedRows.Placed.run (placed : data.Placed rowsPerPage) (ops : List BackendOp) :
    (data.run codec rowsPerPage ops).Placed rowsPerPage := by
  induction ops generalizing data with
  | nil => exact placed
  | cons op rest ih => exact ih (placed.step op)

theorem PagedRows.Bounded.run (bounded : data.Bounded) (ops : List BackendOp) :
    (data.run codec rowsPerPage ops).Bounded := by
  induction ops generalizing data with
  | nil => exact bounded
  | cons op rest ih => exact ih (bounded.step op)

end Entries

end MoodengSQL
