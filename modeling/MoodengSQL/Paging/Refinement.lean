import MoodengSQL.Paging.Operations

/-!
# Paged tables refine tables in memory

The operations of `TableBackend` on a paged table answer as they do on a table
in memory while the pages they write fit their slots. An operation whose page
does not fit is refused and changes no answer.
-/

namespace MoodengSQL

open Foundation Foundation.Effect Std

/-- The operations of `TableBackend`. -/
inductive BackendOp where
  | insert (row : Row)
  | applyInsert (rowId : Nat) (row : Row)
  | get (rowId : Nat)
  | scan
  | rowCount
  | delete (rowId : Nat)
  | update (rowId : Nat) (row : Row)

/-- What they return. -/
inductive BackendAnswer where
  | id (rowId : Nat)
  | done
  | row (row : Option Row)
  | rows (rows : List (Nat × Row))
  | count (count : Nat)
  | changed (changed : Bool)
  deriving DecidableEq

/-- An operation on `TableBackend::Memory`. The engine updates only rows that
it has found. -/
def TableData.perform (data : TableData) : BackendOp → Option (BackendAnswer × TableData)
  | .insert row =>
      let (id, data) := data.insert row
      some (.id id, data)
  | .applyInsert rowId row => some (.done, data.applyInsert rowId row)
  | .get rowId => some (.row data.rows[rowId]?, data)
  | .scan => some (.rows data.scan, data)
  | .rowCount => some (.count data.rows.size, data)
  | .delete rowId =>
      let (deleted, data) := data.delete rowId
      some (.changed deleted, data)
  | .update rowId row =>
      if present : rowId ∈ data.rows then some (.changed true, data.update rowId row present)
      else none

/-- Operations on `TableBackend::Memory`, one after the other. -/
def TableData.performAll (data : TableData) :
    List BackendOp → Option (List BackendAnswer × TableData)
  | [] => some ([], data)
  | op :: rest => do
      let (answer, next) ← data.perform op
      let (answers, final) ← next.performAll rest
      return (answer :: answers, final)

section Paged

variable [Runtime] (codec : PageCodec)

/-- An operation on `TableBackend::Paged`. -/
def PageTable.perform : BackendOp → PageM BackendAnswer
  | .insert row => return .id (← PageTable.insert codec row)
  | .applyInsert rowId row => do
      PageTable.applyInsert codec rowId row
      return .done
  | .get rowId => return .row (← PageTable.get codec rowId)
  | .scan => return .rows (← PageTable.scan codec)
  | .rowCount => return .count (← PageTable.rowCount codec)
  | .delete rowId => return .changed (← PageTable.delete codec rowId)
  | .update rowId row => return .changed (← PageTable.update codec rowId row)

/-- Operations on `TableBackend::Paged`, one after the other. -/
def PageTable.performAll : List BackendOp → PageM (List BackendAnswer)
  | [] => return []
  | op :: rest => do
      let answer ← PageTable.perform codec op
      let answers ← PageTable.performAll rest
      return answer :: answers

/-- The row an operation addresses. -/
def BackendOp.addresses (data : TableData) : BackendOp → Option Nat
  | .insert _ => some data.nextId
  | .applyInsert rowId _ => some rowId
  | .get rowId => some rowId
  | .scan => none
  | .rowCount => none
  | .delete rowId => some rowId
  | .update rowId _ => some rowId

/-- The row whose page an operation stores. -/
def BackendOp.writes (data : TableData) : BackendOp → Option Nat
  | .insert _ => some data.nextId
  | .applyInsert rowId _ => some rowId
  | .get _ => none
  | .scan => none
  | .rowCount => none
  | .delete rowId => if rowId ∈ data.rows then some rowId else none
  | .update rowId _ => some rowId

/-- The page an operation stores. -/
def BackendOp.storedPage (op : BackendOp) (rowsPerPage : Nat) (data next : TableData) :
    Option PageBody :=
  (op.writes data).map fun rowId => pageRows rowsPerPage next.rows (pageOf rowsPerPage rowId)

/-- The table in memory that a paged table stands for after a refused
operation: an id has been used up, and the rows are as they were. -/
def TableData.refused (data : TableData) : BackendOp → TableData
  | .insert _ =>
      { rows := data.rows
        nextId := data.nextId + 1
        fresh := fun id member => Nat.lt_succ_of_lt (data.fresh id member) }
  | .applyInsert rowId _ =>
      { rows := data.rows
        nextId := if data.nextId ≤ rowId then rowId + 1 else data.nextId
        fresh := by
          intro id member
          have := data.fresh id member
          split <;> omega }
  | _ => data

variable {codec} {pt : PageTable} {data next : TableData} {op : BackendOp} {answer : BackendAnswer}

/-- The paged table stands for the table in memory. -/
structure Paged (codec : PageCodec) (rowsPerPage : Nat) (pt : PageTable) (data : TableData) :
    Prop where
  rowsPerPage : pt.rowsPerPage = rowsPerPage
  holds : Holds codec pt data.rows
  nextId : pt.nextId = data.nextId

/-- An operation on which a paged table is compared with the memory: it addresses a row
within range, and the page it stores is decoded back if it fits. -/
structure Admitted (codec : PageCodec) (rowsPerPage : Nat) (data next : TableData)
    (op : BackendOp) : Prop where
  addressable : ∀ rowId, op.addresses data = some rowId → Addressable rowsPerPage rowId
  decodes : ∀ body, op.storedPage rowsPerPage data next = some body →
    Fits codec body → Decodes codec body

/-- The page the operation stores does not fit its slot. -/
def Overflows (codec : PageCodec) (rowsPerPage : Nat) (data next : TableData) (op : BackendOp) :
    Prop :=
  ∃ body, op.storedPage rowsPerPage data next = some body ∧ ¬ Fits codec body

/-- The outcome of an operation on a paged table. -/
structure Answers (codec : PageCodec) (rowsPerPage : Nat) (pt : PageTable) (data next : TableData)
    (op : BackendOp) (answer : BackendAnswer) : Prop where
  performs : ¬ Overflows codec rowsPerPage data next op →
    ∃ pt', PageTable.perform codec op pt = .ok answer pt' ∧ Paged codec rowsPerPage pt' next
  refuses : Overflows codec rowsPerPage data next op →
    ∃ pt', PageTable.perform codec op pt = .error (.error (.storage "page overflow")) pt' ∧
      Paged codec rowsPerPage pt' (data.refused op)

omit [Runtime] in
theorem rows_refused (data : TableData) (op : BackendOp) : (data.refused op).rows = data.rows := by
  cases op <;> rfl

/-- A read answers without storing a page. -/
theorem Answers.of_read {rowsPerPage : Nat} {cache : LruCache} (paged : Paged codec rowsPerPage pt data)
    (reads : op.writes data = none)
    (performs : PageTable.perform codec op pt = .ok answer { pt with cache })
    (holds : Holds codec { pt with cache } data.rows) :
    Answers codec rowsPerPage pt data data op answer where
  performs _ := ⟨_, performs, paged.rowsPerPage, holds, paged.nextId⟩
  refuses := by
    rintro ⟨body, stored, -⟩
    rw [BackendOp.storedPage, reads] at stored
    cases stored

/-- A write stores the page or is refused. -/
theorem Answers.of_write {rowsPerPage rowId : Nat} (begun : PageTable) {m : PageM BackendAnswer}
    (performs : PageTable.perform codec op pt = m begun)
    (sameSize : begun.rowsPerPage = rowsPerPage)
    (writes : op.writes data = some rowId)
    (stored : begun.nextId = next.nextId) (refused : begun.nextId = (data.refused op).nextId)
    (stores : StoresPage codec begun data.rows next.rows
      (pageRows begun.rowsPerPage next.rows (pageOf begun.rowsPerPage rowId)) m answer) :
    Answers codec rowsPerPage pt data next op answer := by
  subst sameSize
  have page : op.storedPage begun.rowsPerPage data next =
      some (pageRows begun.rowsPerPage next.rows (pageOf begun.rowsPerPage rowId)) := by
    rw [BackendOp.storedPage, writes]
    rfl
  unfold StoresPage at stores
  constructor
  · intro fits
    have fits : Fits codec (pageRows begun.rowsPerPage next.rows (pageOf begun.rowsPerPage rowId)) := by
      by_contra overflows
      exact fits ⟨_, page, overflows⟩
    rw [if_pos fits] at stores
    obtain ⟨pt', ran, holds, same⟩ := stores
    exact ⟨pt', performs.trans ran, same.1, holds, same.2.trans stored⟩
  · rintro ⟨body, page', overflows⟩
    obtain rfl := Option.some.inj (page.symm.trans page')
    rw [if_neg overflows] at stores
    obtain ⟨pt', ran, holds, same⟩ := stores
    refine ⟨pt', performs.trans ran, same.1, ?_, same.2.trans refused⟩
    rw [rows_refused]
    exact holds

/-- **Every operation on a paged table answers as on the table in memory**, or is
refused because its page does not fit. -/
theorem Paged.perform {rowsPerPage : Nat} (paged : Paged codec rowsPerPage pt data)
    (performed : data.perform op = some (answer, next))
    (admitted : Admitted codec rowsPerPage data next op) :
    Answers codec rowsPerPage pt data next op answer := by
  have holds := paged.holds
  have nextId := paged.nextId
  obtain rfl := paged.rowsPerPage
  obtain ⟨addressable, decodes⟩ := admitted
  cases op with
  | insert row =>
      obtain ⟨rfl, rfl⟩ := Prod.mk.inj (Option.some.inj performed)
      have stores := (holds.withNextId (data.nextId + 1)).putRowAndHeader (a := data.nextId)
        (addressable data.nextId rfl) (decodes _ rfl)
      refine .of_write { pt with nextId := data.nextId + 1 } ?_ rfl rfl rfl rfl (stores.map BackendAnswer.id)
      rw [← nextId]
      rfl
  | applyInsert rowId row =>
      obtain ⟨rfl, rfl⟩ := Prod.mk.inj (Option.some.inj performed)
      have stores := (holds.withNextId
        (if data.nextId ≤ rowId then rowId + 1 else data.nextId)).putRowAndHeader (a := ())
        (addressable rowId rfl) (decodes _ rfl)
      refine .of_write { pt with
        nextId := if data.nextId ≤ rowId then rowId + 1 else data.nextId } ?_ rfl rfl rfl rfl
        (stores.map fun _ => BackendAnswer.done)
      rw [← nextId]
      rfl
  | get rowId =>
      obtain ⟨rfl, rfl⟩ := Prod.mk.inj (Option.some.inj performed)
      obtain ⟨cache, got, held⟩ := holds.get (addressable rowId rfl)
      exact .of_read paged rfl (bind_eq_ok.mpr ⟨_, _, got, rfl⟩) held
  | scan =>
      obtain ⟨rfl, rfl⟩ := Prod.mk.inj (Option.some.inj performed)
      obtain ⟨cache, scanned, held⟩ := holds.scan
      exact .of_read paged rfl (bind_eq_ok.mpr ⟨_, _, scanned, rfl⟩) held
  | rowCount =>
      obtain ⟨rfl, rfl⟩ := Prod.mk.inj (Option.some.inj performed)
      obtain ⟨cache, counted, held⟩ := holds.rowCount
      exact .of_read paged rfl (bind_eq_ok.mpr ⟨_, _, counted, rfl⟩) held
  | delete rowId =>
      obtain ⟨rfl, rfl⟩ := Prod.mk.inj (Option.some.inj performed)
      by_cases present : rowId ∈ data.rows
      · have writes : BackendOp.writes data (.delete rowId) = some rowId := if_pos present
        have stores := holds.delete (addressable rowId rfl) present
          (decodes _ (by rw [BackendOp.storedPage, writes]; rfl))
        rw [show decide (rowId ∈ data.rows) = true from decide_eq_true present]
        exact .of_write pt rfl rfl writes nextId nextId (stores.map BackendAnswer.changed)
      · obtain ⟨cache, kept, held⟩ := holds.delete_absent (addressable rowId rfl) present
        have unwritten : BackendOp.writes data (.delete rowId) = none := if_neg present
        have same : (data.delete rowId).2 = data := by
          have rows : data.rows.erase rowId = data.rows := by
            apply ExtTreeMap.ext_getElem?
            intro id
            rw [ExtTreeMap.getElem?_erase]
            split
            · rename_i here
              rw [← LawfulEqOrd.eq_of_compare here, ExtTreeMap.getElem?_eq_none present]
            · rfl
          simp only [TableData.delete, rows]
        change Answers codec pt.rowsPerPage pt data (data.delete rowId).2 _
          (.changed (data.delete rowId).1)
        rw [same, show (data.delete rowId).1 = false from decide_eq_false present]
        exact .of_read paged unwritten (bind_eq_ok.mpr ⟨_, _, kept, rfl⟩) held
  | update rowId row =>
      dsimp only [TableData.perform] at performed
      split at performed
      · rename_i present
        obtain ⟨rfl, rfl⟩ := Prod.mk.inj (Option.some.inj performed)
        have stores := holds.update (addressable rowId rfl) present (decodes _ rfl)
        exact .of_write pt rfl rfl rfl nextId nextId (stores.map BackendAnswer.changed)
      · cases performed

/-- A fresh paged table stands for an empty one. -/
theorem paged_fresh (codec : PageCodec) (maxPages : Nat) {rowsPerPage : Nat}
    (positive : 0 < rowsPerPage) :
    Paged codec rowsPerPage (.open none maxPages rowsPerPage) .empty := by
  have none (page : Nat) : pageRows rowsPerPage TableData.empty.rows page = ∅ :=
    pageRows_eq_empty fun id member => absurd member ExtTreeMap.not_mem_empty
  have held := holdsPages_fresh codec maxPages rowsPerPage
  rw [← funext none] at held
  refine ⟨rfl, held.holds rfl positive fun id member => ?_, rfl⟩
  exact absurd member ExtTreeMap.not_mem_empty

/-- Every operation of a sequence is admitted and stores a page that fits. -/
def AdmitsAll (codec : PageCodec) (rowsPerPage : Nat) : TableData → List BackendOp → Prop
  | _, [] => True
  | data, op :: rest => ∀ answer next, data.perform op = some (answer, next) →
      Admitted codec rowsPerPage data next op ∧ ¬ Overflows codec rowsPerPage data next op ∧
        AdmitsAll codec rowsPerPage next rest

theorem Paged.performAll {rowsPerPage : Nat} {ops : List BackendOp} {answers : List BackendAnswer}
    (paged : Paged codec rowsPerPage pt data)
    (performed : data.performAll ops = some (answers, next))
    (admitted : AdmitsAll codec rowsPerPage data ops) :
    ∃ pt', PageTable.performAll codec ops pt = .ok answers pt' ∧ Paged codec rowsPerPage pt' next := by
  induction ops generalizing pt data answers with
  | nil =>
      cases performed
      exact ⟨pt, rfl, paged⟩
  | cons op rest ih =>
      simp only [TableData.performAll, Option.bind_eq_bind, Option.bind_eq_some_iff] at performed
      obtain ⟨⟨answer, mid⟩, first, ⟨later, final⟩, others, ended⟩ := performed
      obtain ⟨rfl, rfl⟩ := Prod.mk.inj (Option.some.inj ended)
      obtain ⟨admits, fits, restAdmits⟩ := admitted answer mid first
      obtain ⟨pt₁, ran, paged₁⟩ := (paged.perform first admits).performs fits
      obtain ⟨pt₂, ranAll, paged₂⟩ := ih paged₁ others restAdmits
      exact ⟨pt₂, bind_eq_ok.mpr ⟨_, _, ran, bind_eq_ok.mpr ⟨_, _, ranAll, rfl⟩⟩, paged₂⟩

/-- The states of a paged table under admitted operations, some of them
refused, with the table in memory each stands for. -/
inductive PagedRun (codec : PageCodec) (maxPages rowsPerPage : Nat) : PageTable → TableData → Prop
  | fresh : PagedRun codec maxPages rowsPerPage (.open none maxPages rowsPerPage) .empty
  | performs {pt : PageTable} {data next : TableData} {op : BackendOp} {answer : BackendAnswer}
      (run : PagedRun codec maxPages rowsPerPage pt data)
      (performed : data.perform op = some (answer, next))
      (admitted : Admitted codec rowsPerPage data next op)
      (fits : ¬ Overflows codec rowsPerPage data next op) :
      PagedRun codec maxPages rowsPerPage (finalState (PageTable.perform codec op) pt) next
  | refuses {pt : PageTable} {data next : TableData} {op : BackendOp} {answer : BackendAnswer}
      (run : PagedRun codec maxPages rowsPerPage pt data)
      (performed : data.perform op = some (answer, next))
      (admitted : Admitted codec rowsPerPage data next op)
      (overflows : Overflows codec rowsPerPage data next op) :
      PagedRun codec maxPages rowsPerPage (finalState (PageTable.perform codec op) pt)
        (data.refused op)

theorem PagedRun.paged {maxPages rowsPerPage : Nat} (positive : 0 < rowsPerPage)
    (run : PagedRun codec maxPages rowsPerPage pt data) : Paged codec rowsPerPage pt data := by
  induction run with
  | fresh => exact paged_fresh codec maxPages positive
  | performs _ performed admitted fits ih =>
      obtain ⟨pt', ran, paged⟩ := (ih.perform performed admitted).performs fits
      rw [finalState_of_ok ran]
      exact paged
  | refuses _ performed admitted overflows ih =>
      obtain ⟨pt', ran, paged⟩ := (ih.perform performed admitted).refuses overflows
      rw [finalState_of_error ran]
      exact paged

/-- **The paged backend refines the one in memory.** Admitted operations whose
pages fit return what they return on the table in memory; an insert returns an
id that is not in the table; and an operation whose page does not fit returns an
error and leaves every answer of `get` and `scan` as it was. -/
theorem paged_refines_memory (codec : PageCodec) (maxPages rowsPerPage : Nat)
    (positive : 1 ≤ rowsPerPage) :
    (∀ ops answers data, TableData.performAll .empty ops = some (answers, data) →
      AdmitsAll codec rowsPerPage .empty ops →
      ∃ pt, PageTable.performAll codec ops (.open none maxPages rowsPerPage) = .ok answers pt) ∧
    (∀ pt data row id pt', PagedRun codec maxPages rowsPerPage pt data →
      PageTable.insert codec row pt = .ok id pt' →
      ∃ rows pt'', PageTable.scan codec pt = .ok rows pt'' ∧ id ∉ rows.map Prod.fst) ∧
    ∀ pt data op answer next, PagedRun codec maxPages rowsPerPage pt data →
      data.perform op = some (answer, next) → Admitted codec rowsPerPage data next op →
      Overflows codec rowsPerPage data next op →
      ∃ pt', PageTable.perform codec op pt = .error (.error (.storage "page overflow")) pt' ∧
        (∀ rowId, Addressable rowsPerPage rowId → ∃ row before after,
          PageTable.get codec rowId pt = .ok row before ∧
            PageTable.get codec rowId pt' = .ok row after) ∧
        ∃ rows before after, PageTable.scan codec pt = .ok rows before ∧
          PageTable.scan codec pt' = .ok rows after := by
  refine ⟨fun ops answers data performed admitted => ?_,
    fun pt data row id pt' run inserted => ?_,
    fun pt data op answer next run performed admitted overflows => ?_⟩
  · obtain ⟨pt, ran, -⟩ := (paged_fresh codec maxPages positive).performAll performed admitted
    exact ⟨pt, ran⟩
  · have paged := run.paged positive
    obtain ⟨cache, scanned, -⟩ := paged.holds.scan
    refine ⟨_, _, scanned, ?_⟩
    have next : pt.nextId = id := by
      simp only [PageTable.insert, bind_eq_ok, get_eq_ok, pure_eq_ok] at inserted
      obtain ⟨_, _, ⟨rfl, rfl⟩, _, _, -, _, _, -, _, _, -, same, -⟩ := inserted
      exact same
    rw [ExtTreeMap.map_fst_toList_eq_keys, ExtTreeMap.mem_keys, ← next, paged.nextId]
    exact fun member => Nat.lt_irrefl _ (data.fresh _ member)
  · have paged := run.paged positive
    obtain ⟨pt', ran, paged'⟩ := (paged.perform performed admitted).refuses overflows
    have holds := paged'.holds
    rw [rows_refused] at holds
    refine ⟨pt', ran, fun rowId addressable => ?_, ?_⟩
    · obtain ⟨before, got, -⟩ := paged.holds.get (paged.rowsPerPage ▸ addressable)
      obtain ⟨after, got', -⟩ := holds.get (paged'.rowsPerPage ▸ addressable)
      exact ⟨_, _, _, got, got'⟩
    · obtain ⟨before, scanned, -⟩ := paged.holds.scan
      obtain ⟨after, scanned', -⟩ := holds.scan
      exact ⟨_, _, _, scanned, scanned'⟩

end Paged

/-- The next little-endian number of eight bytes. -/
private def readU64 (bytes : List UInt8) : Nat × List UInt8 :=
  (fromLeBytes (bytes.take 8), bytes.drop 8)

/-- Read one item after the other. -/
private def readMany {α : Type} (read : List UInt8 → Option (α × List UInt8)) :
    Nat → List UInt8 → Option (List α × List UInt8)
  | 0, bytes => some ([], bytes)
  | count + 1, bytes => do
      let (item, bytes) ← read bytes
      let (items, bytes) ← readMany read count bytes
      return (item :: items, bytes)

/-- The layout of pages whose rows hold nulls and booleans. -/
def PageCodec.flags : PageCodec where
  serialize entries := toLeBytes 8 entries.length ++ entries.flatMap fun entry =>
    toLeBytes 8 entry.1 ++ toLeBytes 8 entry.2.values.length ++
      entry.2.values.flatMap (fun
        | .bool b => toLeBytes 4 6 ++ [if b then 1 else 0]
        | _ => toLeBytes 4 0) ++
      toLeBytes 8 entry.2.version
  deserialize bytes :=
    let readValue (bytes : List UInt8) : Option (Value × List UInt8) :=
      match fromLeBytes (bytes.take 4), bytes.drop 4 with
      | 0, rest => some (.null, rest)
      | 6, flag :: rest => some (.bool (flag ≠ 0), rest)
      | _, _ => none
    let readEntry (bytes : List UInt8) : Option ((Nat × Row) × List UInt8) := do
      let (id, bytes) := readU64 bytes
      let (count, bytes) := readU64 bytes
      let (values, bytes) ← readMany readValue count bytes
      let (version, bytes) := readU64 bytes
      return ((id, { values, version }), bytes)
    let (count, bytes) := readU64 bytes
    match readMany readEntry count bytes with
    | some (entries, _) => .ok entries
    | none => .error "unexpected end of file"

private theorem admitsAll_cons [Runtime] {codec : PageCodec} {rowsPerPage : Nat} {data next : TableData}
    {op : BackendOp} {answer : BackendAnswer} {rest : List BackendOp}
    (performed : data.perform op = some (answer, next))
    (addressable : ∀ rowId, op.addresses data = some rowId → Addressable rowsPerPage rowId)
    (stores : ∀ body, op.storedPage rowsPerPage data next = some body →
      Fits codec body ∧ Decodes codec body)
    (later : AdmitsAll codec rowsPerPage next rest) :
    AdmitsAll codec rowsPerPage data (op :: rest) := by
  intro answer' next' performed'
  obtain ⟨rfl, rfl⟩ := Prod.mk.inj (Option.some.inj (performed.symm.trans performed'))
  exact ⟨⟨addressable, fun body stored _ => (stores body stored).2⟩,
    fun ⟨body, stored, overflows⟩ => overflows (stores body stored).1, later⟩

/-- The page of a first row. -/
private theorem storedPage_first (row : Row) :
    BackendOp.storedPage (.insert row) 1 .empty (TableData.empty.insert row).2 =
      some ((∅ : PageBody).insert 1 row) := by
  change some (pageRows 1 ((∅ : Map Nat Row).insert 1 row) (pageOf 1 1)) = _
  rw [pageRows_insert, if_pos rfl, pageRows_eq_empty]
  exact fun id member => absurd member ExtTreeMap.not_mem_empty

/-- Seventeen thousand nulls do not fit a page. -/
private theorem nulls_overflow {row : Row} (nulls : row.values = List.replicate 17000 .null) :
    @Overflows Runtime.reference .flags 1 .empty (TableData.empty.insert row).2
      (.insert row) := by
  let _ := Runtime.reference
  refine ⟨_, storedPage_first row, Nat.not_le.mpr ?_⟩
  have entries : (ExtTreeMap.insert (∅ : PageBody) 1 row).toList = [(1, row)] := by rfl
  have encoded : PageTable.encodePage .flags (ExtTreeMap.insert (∅ : PageBody) 1 row) =
      PageCodec.flags.serialize [(1, row)] := congrArg PageCodec.flags.serialize entries
  rw [encoded]
  simp only [PageCodec.flags, nulls, List.flatMap_cons, List.flatMap_nil, List.length_append,
    List.length_flatMap, List.map_replicate, List.sum_replicate, length_toLeBytes]
  decide

/-- Two inserts, a removal and a scan on pages of one row, behind a cache of
one page; and a row that fits no page. -/
theorem paged_refines_memory_single_rows :
    (∃ pt, @PageTable.performAll Runtime.reference .flags
      [.insert (Row.new [.bool true]), .insert (Row.new [.null]), .delete 1, .scan]
      (.open none 1 1) =
        .ok [.id 1, .id 2, .changed true, .rows [(2, ⟨[.null], 1⟩)]] pt) ∧
    ∃ row pt, row.values = List.replicate 17000 .null ∧
      @PageTable.perform Runtime.reference .flags (.insert row) (.open none 1 1) =
        .error (.error (.storage "page overflow")) pt := by
  let _ := Runtime.reference
  obtain ⟨refines, -, refuses⟩ := paged_refines_memory .flags 1 1 (Nat.le_refl 1)
  constructor
  · refine refines _ _ ((((TableData.empty.insert (Row.new [.bool true])).2.insert
      (Row.new [.null])).2.delete 1).2) (by rfl) ?_
    refine admitsAll_cons rfl (fun rowId addressed => ?_) (fun body stored => ?_)
      (admitsAll_cons rfl (fun rowId addressed => ?_) (fun body stored => ?_)
        (admitsAll_cons rfl (fun rowId addressed => ?_) (fun body stored => ?_)
          (admitsAll_cons rfl nofun nofun trivial)))
    · cases addressed
      decide
    · cases stored
      decide +kernel
    · cases addressed
      decide
    · cases stored
      decide +kernel
    · cases addressed
      decide
    · cases stored
      decide +kernel
  · obtain ⟨row, nulls⟩ : ∃ row : Row, row.values = List.replicate 17000 .null :=
      ⟨Row.new _, rfl⟩
    have overflows := nulls_overflow nulls
    have admitted : Admitted .flags 1 .empty (TableData.empty.insert row).2 (.insert row) := by
      refine ⟨fun rowId addressed => ?_, fun body stored fits => ?_⟩
      · cases addressed
        decide
      · obtain ⟨body', stored', unfit⟩ := overflows
        obtain rfl := Option.some.inj (stored'.symm.trans stored)
        exact absurd fits unfit
    obtain ⟨pt', refused, -⟩ := refuses _ .empty (.insert row) _ _ .fresh rfl admitted overflows
    exact ⟨row, pt', nulls, refused⟩

end MoodengSQL
