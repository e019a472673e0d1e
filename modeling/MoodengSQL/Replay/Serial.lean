import MoodengSQL.Replay.Committed
import MoodengSQL.Storage.Contents
import MoodengSQL.Foundation.Ledger

/-!
# The log as a ledger

The log of one session holds the changes logged since the last checkpoint, and
a transaction's decision is the last of its records. Appending to the log and
truncating it are operations of the ledger, and replay applies the changes of
its committed transactions, as far as they lie beyond the checkpoint.
-/

namespace MoodengSQL

open Foundation

namespace WalOp

/-- The transaction a record belongs to. -/
def txnId : WalOp → Nat
  | begin id => id
  | commit id => id
  | abort id => id
  | insert id _ _ _ => id
  | update id _ _ _ => id
  | delete id _ _ => id

/-- Commit and abort records. -/
def isDecision : WalOp → Bool
  | commit _ => true
  | abort _ => true
  | _ => false

/-- What replaying a record does to the row values. -/
def cellOp : WalOp → Option (CellOp RowKey (List Value))
  | insert _ table rowId row => some (.put (table, rowId) row.values)
  | update _ table rowId row => some (.replace (table, rowId) row.values)
  | delete _ table rowId => some (.erase (table, rowId))
  | _ => none

theorem dataTxnId_eq {op : WalOp} {id : Nat} (data : op.dataTxnId = some id) : op.txnId = id := by
  cases op <;> simp_all [dataTxnId, txnId]

theorem dataTxnId_of_cellOp {op : WalOp} {cell : CellOp RowKey (List Value)}
    (data : op.cellOp = some cell) : op.dataTxnId = some op.txnId := by
  cases op <;> first | rfl | cases data

theorem decides_of_ne {op : WalOp} {id : Nat} (other : op.txnId ≠ id) : op.decides id = none := by
  cases op <;> simp_all [decides, txnId]

theorem decides_of_not_isDecision {op : WalOp} (open_ : op.isDecision = false) (id : Nat) :
    op.decides id = none := by
  cases op <;> simp_all [decides, isDecision]

end WalOp

/-- What replaying records does to the row values. -/
def cellOps (entries : List WalEntry) : List (CellOp RowKey (List Value)) :=
  entries.filterMap (·.2.cellOp)

/-- The changes a list of records stands for. -/
def walChanges (entries : List WalEntry) : List (Change RowKey (List Value)) :=
  entries.filterMap fun entry => entry.2.cellOp.map (entry.2.txnId, ·)

theorem map_walChanges (entries : List WalEntry) :
    (walChanges entries).map Prod.snd = cellOps entries := by
  unfold walChanges cellOps
  rw [List.map_filterMap]
  congr 1
  funext entry
  cases entry.2.cellOp <;> rfl

theorem walChanges_append (first second : List WalEntry) :
    walChanges (first ++ second) = walChanges first ++ walChanges second :=
  List.filterMap_append

section Decisions

theorem lastDecision_append (first second : List WalEntry) (id : Nat) :
    lastDecision (first ++ second) id =
      (lastDecision second id).or (lastDecision first id) := by
  induction second using List.reverseRecOn with
  | nil => simp [lastDecision]
  | append_singleton second entry ih =>
      rw [← List.append_assoc, lastDecision_concat, lastDecision_concat, ih, Option.or_assoc]

theorem lastDecision_eq_none {entries : List WalEntry} {id : Nat}
    (undecided : ∀ entry ∈ entries, entry.2.decides id = none) :
    lastDecision entries id = none := by
  induction entries using List.reverseRecOn with
  | nil => rfl
  | append_singleton entries entry ih =>
      rw [lastDecision_concat, undecided entry (by simp), ih fun other member =>
        undecided other (List.mem_append_left _ member)]
      rfl

theorem isCommitted_congr {entries entries' : List WalEntry} {entry : WalEntry}
    (same : lastDecision entries entry.2.txnId = lastDecision entries' entry.2.txnId) :
    isCommitted entries entry = isCommitted entries' entry := by
  unfold isCommitted
  cases data : entry.2.dataTxnId with
  | none => rfl
  | some id =>
      rw [WalOp.dataTxnId_eq data] at same
      simp only [same]

end Decisions

section Numbering

/-- Sequence numbers ascend. -/
def Ascending (entries : List WalEntry) : Prop := entries.Pairwise fun a b => a.1 < b.1

/-- A transaction's decision is its last record. -/
def Closed (entries : List WalEntry) : Prop :=
  entries.Pairwise fun a b => a.2.isDecision = true → b.2.txnId ≠ a.2.txnId

theorem Ascending.distinctLsns {entries : List WalEntry} (ascending : Ascending entries) :
    DistinctLsns entries :=
  List.pairwise_map.mpr (ascending.imp fun less => Nat.ne_of_lt less)

theorem Ascending.sortByLsn {entries : List WalEntry} (ascending : Ascending entries) :
    sortByLsn entries = entries :=
  List.Pairwise.insertionSort_eq (ascending.imp fun less => Nat.le_of_lt less)

/-- The records beyond a sequence number are the end of the log. -/
theorem Ascending.exists_split {entries : List WalEntry} (ascending : Ascending entries)
    (lsn : Nat) :
    ∃ front back, entries = front ++ back ∧ entries.filter (lsn < ·.1) = back ∧
      ∀ entry ∈ front, entry.1 ≤ lsn := by
  induction entries with
  | nil => exact ⟨[], [], rfl, rfl, by simp⟩
  | cons first rest ih =>
      obtain ⟨before, later⟩ := List.pairwise_cons.mp ascending
      by_cases beyond : lsn < first.1
      · have all : (first :: rest).filter (lsn < ·.1) = first :: rest := by
          refine List.filter_eq_self.mpr fun entry member => ?_
          rcases List.mem_cons.mp member with rfl | member
          · simpa using beyond
          · simpa using beyond.trans (before entry member)
        exact ⟨[], first :: rest, rfl, all, by simp⟩
      · obtain ⟨front, back, split, kept, low⟩ := ih later
        refine ⟨first :: front, back, by rw [split]; rfl, ?_, ?_⟩
        · rw [List.filter_cons_of_neg (by simpa using beyond), kept]
        · intro entry member
          rcases List.mem_cons.mp member with rfl | member
          · exact Nat.le_of_not_lt beyond
          · exact low entry member

/-- Dropping the records up to a sequence number drops the same committed records. -/
theorem committedRecords_filter {entries : List WalEntry} (ascending : Ascending entries)
    (closed : Closed entries) (lsn : Nat) :
    committedRecords (entries.filter (lsn < ·.1)) =
      (committedRecords entries).filter (lsn < ·.1) := by
  obtain ⟨front, back, rfl, kept, low⟩ := ascending.exists_split lsn
  have high : ∀ entry ∈ back, lsn < entry.1 := fun entry member => by
    rw [← kept] at member
    simpa using (List.mem_filter.mp member).2
  have same : ∀ entry ∈ back, isCommitted back entry = isCommitted (front ++ back) entry := by
    intro entry member
    refine isCommitted_congr ?_
    have undecided : lastDecision front entry.2.txnId = none := by
      refine lastDecision_eq_none fun other inFront => ?_
      have apart := (List.pairwise_append.mp closed).2.2 other inFront entry member
      cases decision : other.2.isDecision with
      | false => exact WalOp.decides_of_not_isDecision decision _
      | true => exact WalOp.decides_of_ne (Ne.symm (apart decision))
    rw [lastDecision_append, undecided, Option.or_none]
  have dropped : (front.filter (isCommitted (front ++ back))).filter (lsn < ·.1) = [] := by
    refine List.filter_eq_nil_iff.mpr fun entry member => ?_
    simpa using low entry (List.mem_filter.mp member).1
  have stays : (back.filter (isCommitted (front ++ back))).filter (lsn < ·.1) =
      back.filter (isCommitted (front ++ back)) :=
    List.filter_eq_self.mpr fun entry member => by
      simpa using high entry (List.mem_filter.mp member).1
  rw [kept, committedRecords, committedRecords, List.filter_append, List.filter_append, dropped,
    stays, List.nil_append]
  exact List.filter_congr same

end Numbering

section Ledger

/-- The log holds what the ledger says was logged since the last checkpoint. -/
structure Logs (wal : WriteAheadLog) (l : Ledger RowKey (List Value)) : Prop where
  changes : walChanges wal.file = l.logged
  decided : ∀ entry ∈ wal.file,
    (lastDecision wal.file entry.2.txnId = some true ↔ entry.2.txnId ∈ l.committed)
  undecided : ∀ entry ∈ wal.file, entry.2.isDecision = true → l.running ≠ some entry.2.txnId
  ascending : Ascending wal.file
  numbered : ∀ entry ∈ wal.file, 0 < entry.1 ∧ entry.1 ≤ wal.lsn
  closed : Closed wal.file
  used : ∀ entry ∈ wal.file, entry.2.txnId < wal.nextTxnId
  allocated : ∀ txn, txn ∈ l.committed ∨ l.running = some txn ∨ l.within = some txn →
    0 < txn ∧ txn < wal.nextTxnId
  positive : 0 < wal.nextTxnId
  truncated : ∀ txn, l.within = some txn → ∀ entry ∈ wal.file, entry.2 ≠ .begin txn
  unmarked : wal.checkpointFile = none → l.within = none

variable {wal : WriteAheadLog} {l : Ledger RowKey (List Value)} {txn : Nat}

theorem Logs.ascending_append (logs : Logs wal l) (op : WalOp) :
    Ascending (wal.append op).file ∧ ∀ entry ∈ (wal.append op).file,
      0 < entry.1 ∧ entry.1 ≤ (wal.append op).lsn := by
  constructor
  · refine List.pairwise_append.mpr ⟨logs.ascending, List.pairwise_singleton _ _, ?_⟩
    intro entry member last isLast
    rw [List.mem_singleton.mp isLast]
    exact Nat.lt_succ_of_le (logs.numbered entry member).2
  · intro entry member
    rcases List.mem_append.mp member with before | last
    · exact (logs.numbered entry before).imp_right Nat.le_succ_of_le
    · rw [List.mem_singleton.mp last]
      exact ⟨Nat.succ_pos _, Nat.le_refl _⟩

theorem Logs.closed_append (logs : Logs wal l) {op : WalOp}
    (unended : ∀ entry ∈ wal.file, entry.2.isDecision = true → op.txnId ≠ entry.2.txnId) :
    Closed (wal.append op).file := by
  refine List.pairwise_append.mpr ⟨logs.closed, List.pairwise_singleton _ _, ?_⟩
  intro entry member last isLast decision
  rw [List.mem_singleton.mp isLast]
  exact unended entry member decision

theorem Logs.truncated_append (logs : Logs wal l) {op : WalOp} (notBegin : ∀ id, op ≠ .begin id) :
    ∀ txn, l.within = some txn → ∀ entry ∈ (wal.append op).file, entry.2 ≠ .begin txn := by
  intro txn within entry member
  rcases List.mem_append.mp member with before | last
  · exact logs.truncated txn within entry before
  · rw [List.mem_singleton.mp last]
    exact notBegin txn

theorem Logs.lastDecision_running (logs : Logs wal l) (running : l.running = some txn) :
    lastDecision wal.file txn = none := by
  refine lastDecision_eq_none fun entry member => ?_
  cases decision : entry.2.isDecision with
  | false => exact WalOp.decides_of_not_isDecision decision _
  | true =>
      refine WalOp.decides_of_ne ?_
      rintro rfl
      exact logs.undecided entry member decision running

theorem logs_open : Logs (.open [] none) .empty := by
  refine ⟨rfl, ?_, ?_, .nil, ?_, .nil, ?_, ?_, Nat.one_pos, ?_, ?_⟩ <;>
    simp [WriteAheadLog.open, Ledger.empty]

theorem Logs.begin (logs : Logs wal l) :
    Logs (wal.allocTxnId.2.append (.begin wal.nextTxnId)) (l.begin wal.nextTxnId) := by
  have allocated : Logs wal.allocTxnId.2 l :=
    ⟨logs.changes, logs.decided, logs.undecided, logs.ascending, logs.numbered, logs.closed,
      fun entry member => Nat.lt_succ_of_lt (logs.used entry member),
      fun txn either => (logs.allocated txn either).imp_right Nat.lt_succ_of_lt,
      Nat.succ_pos _, logs.truncated, logs.unmarked⟩
  obtain ⟨ascending, numbered⟩ := allocated.ascending_append (.begin wal.nextTxnId)
  have fresh : ∀ entry ∈ wal.file, entry.2.txnId ≠ wal.nextTxnId :=
    fun entry member => Nat.ne_of_lt (logs.used entry member)
  refine ⟨?_, ?_, ?_, ascending, numbered, ?_, ?_, ?_, Nat.succ_pos _, ?_, logs.unmarked⟩
  · change walChanges (wal.file ++ [_]) = l.logged
    rw [walChanges_append, logs.changes]
    exact List.append_nil _
  · intro entry member
    change lastDecision (wal.file ++ [_]) _ = _ ↔ _
    rw [lastDecision_concat]
    rcases List.mem_append.mp member with before | last
    · exact logs.decided entry before
    · rw [List.mem_singleton.mp last]
      have undecided : lastDecision wal.file wal.nextTxnId = none :=
        lastDecision_eq_none fun other inFile => WalOp.decides_of_ne (fresh other inFile)
      have unused : wal.nextTxnId ∉ l.committed :=
        fun used => Nat.lt_irrefl _ (logs.allocated _ (.inl used)).2
      simp [WalOp.decides, WalOp.txnId, undecided, Ledger.begin, unused]
  · intro entry member decision
    rcases List.mem_append.mp member with before | last
    · exact fun same => fresh entry before (Option.some.inj same).symm
    · rw [List.mem_singleton.mp last] at decision
      cases decision
  · exact allocated.closed_append fun entry member _ => (fresh entry member).symm
  · intro entry member
    rcases List.mem_append.mp member with before | last
    · exact allocated.used entry before
    · rw [List.mem_singleton.mp last]
      exact Nat.lt_succ_self _
  · rintro other (committed | running | saved)
    · exact allocated.allocated other (.inl committed)
    · cases running
      exact ⟨logs.positive, Nat.lt_succ_self _⟩
    · exact allocated.allocated other (.inr (.inr saved))
  · intro txn within entry member
    rcases List.mem_append.mp member with before | last
    · exact logs.truncated txn within entry before
    · rw [List.mem_singleton.mp last]
      rintro same
      cases same
      exact Nat.lt_irrefl _ (logs.allocated _ (.inr (.inr within))).2

theorem Logs.change (logs : Logs wal l) (running : l.running = some txn)
    (undecided : txn ∉ l.committed) {op : WalOp} {cell : CellOp RowKey (List Value)}
    (own : op.txnId = txn) (data : op.cellOp = some cell) :
    Logs (wal.append op) (l.change txn cell) := by
  obtain ⟨ascending, numbered⟩ := logs.ascending_append op
  have noDecision : op.isDecision = false := by
    cases op <;> first | rfl | cases data
  refine ⟨?_, ?_, ?_, ascending, numbered, ?_, ?_, logs.allocated, logs.positive, ?_,
    logs.unmarked⟩
  · change walChanges (wal.file ++ [_]) = l.logged ++ [(txn, cell)]
    rw [walChanges_append, logs.changes, ← own]
    simp [walChanges, data]
  · intro entry member
    change lastDecision (wal.file ++ [_]) _ = _ ↔ _
    rw [lastDecision_concat, WalOp.decides_of_not_isDecision noDecision, Option.none_or]
    rcases List.mem_append.mp member with before | last
    · exact logs.decided entry before
    · rw [List.mem_singleton.mp last]
      dsimp only
      rw [own, logs.lastDecision_running running]
      exact ⟨nofun, fun committed => absurd committed undecided⟩
  · intro entry member decision
    rcases List.mem_append.mp member with before | last
    · exact logs.undecided entry before decision
    · rw [List.mem_singleton.mp last] at decision
      rw [noDecision] at decision
      cases decision
  · refine logs.closed_append fun entry member decision same => ?_
    rw [own] at same
    exact logs.undecided entry member decision (same ▸ running)
  · intro entry member
    rcases List.mem_append.mp member with before | last
    · exact logs.used entry before
    · rw [List.mem_singleton.mp last]
      exact own ▸ (logs.allocated txn (.inr (.inl running))).2
  · refine logs.truncated_append fun id same => ?_
    rw [same] at data
    cases data

/-- The decision of the running transaction, as it is logged. -/
private theorem Logs.decision (logs : Logs wal l) (running : l.running = some txn) {op : WalOp}
    {l' : Ledger RowKey (List Value)} (own : op.txnId = txn) (data : op.cellOp = none)
    (logged : l'.logged = l.logged) (idle : l'.running = none) (within : l'.within = l.within)
    (others : ∀ other, other ≠ txn → (other ∈ l'.committed ↔ other ∈ l.committed))
    (decides : op.decides txn = some (decide (txn ∈ l'.committed))) : Logs (wal.append op) l' := by
  obtain ⟨ascending, numbered⟩ := logs.ascending_append op
  have bound := logs.allocated txn (.inr (.inl running))
  refine ⟨?_, ?_, ?_, ascending, numbered, ?_, ?_, ?_, logs.positive, ?_,
    fun unmarked => within.trans (logs.unmarked unmarked)⟩
  · change walChanges (wal.file ++ [_]) = l'.logged
    rw [walChanges_append, logs.changes, logged]
    simp [walChanges, data]
  · intro entry member
    change lastDecision (wal.file ++ [_]) _ = _ ↔ _
    rw [lastDecision_concat]
    by_cases same : entry.2.txnId = txn
    · rw [same, decides]
      simp
    · rw [WalOp.decides_of_ne (fun equal => same (equal.symm.trans own)), Option.none_or,
        others _ same]
      rcases List.mem_append.mp member with before | last
      · exact logs.decided entry before
      · rw [List.mem_singleton.mp last] at same
        exact absurd own same
  · intro entry _ _
    rw [idle]
    nofun
  · refine logs.closed_append fun entry member decision same => ?_
    rw [own] at same
    exact logs.undecided entry member decision (same ▸ running)
  · intro entry member
    rcases List.mem_append.mp member with before | last
    · exact logs.used entry before
    · rw [List.mem_singleton.mp last]
      exact own ▸ bound.2
  · rintro other (committed | other_running | saved)
    · by_cases same : other = txn
      · exact same ▸ bound
      · exact logs.allocated other (.inl ((others other same).mp committed))
    · rw [idle] at other_running
      cases other_running
    · exact logs.allocated other (.inr (.inr (within ▸ saved)))
  · rw [within]
    refine logs.truncated_append fun id same => ?_
    rw [same] at decides
    cases decides

theorem Logs.commit (logs : Logs wal l) (running : l.running = some txn) :
    Logs (wal.append (.commit txn)) (l.commit txn) := by
  refine logs.decision running rfl rfl rfl rfl rfl (fun other differ => ?_) ?_
  · simp [Ledger.commit, differ]
  · simp [WalOp.decides, Ledger.commit]

theorem Logs.abort (logs : Logs wal l) (running : l.running = some txn)
    (undecided : txn ∉ l.committed) : Logs (wal.append (.abort txn)) (l.abort txn) := by
  refine logs.decision running rfl rfl rfl rfl rfl (fun _ _ => Iff.rfl) ?_
  simp [WalOp.decides, Ledger.abort, undecided]

theorem Logs.checkpoint (logs : Logs wal l) (lsn : Nat) :
    Logs (wal.markCheckpoint lsn).truncate l.checkpoint := by
  refine ⟨rfl, ?_, ?_, .nil, ?_, .nil, ?_, ?_, logs.positive, ?_, nofun⟩
  · simp [WriteAheadLog.truncate]
  · simp [WriteAheadLog.truncate]
  · simp [WriteAheadLog.truncate]
  · simp [WriteAheadLog.truncate]
  · rintro other (committed | running | saved)
    · exact logs.allocated other (.inl committed)
    · exact logs.allocated other (.inr (.inl running))
    · exact logs.allocated other (.inr (.inl saved))
  · simp [WriteAheadLog.truncate]

theorem Logs.clear (logs : Logs wal l) (part : RowKey → Bool) : Logs wal (l.clear part) :=
  ⟨logs.changes, logs.decided, logs.undecided, logs.ascending, logs.numbered, logs.closed,
    logs.used, logs.allocated, logs.positive, logs.truncated, logs.unmarked⟩

/-- The committed records are the changes of the committed transactions. -/
theorem Logs.walChanges_committedRecords (logs : Logs wal l) :
    walChanges (committedRecords wal.file) = l.done l.logged := by
  unfold committedRecords Ledger.done walChanges
  rw [← logs.changes, walChanges, List.filterMap_filter, List.filter_filterMap]
  refine List.filterMap_congr fun entry member => ?_
  have decided := logs.decided entry member
  cases data : entry.2.cellOp with
  | none => simp
  | some cell =>
      have owner := WalOp.dataTxnId_of_cellOp data
      by_cases committed : entry.2.txnId ∈ l.committed
      · simp [isCommitted, owner, decided.mpr committed, committed, Option.filter]
      · simp [isCommitted, owner, mt decided.mp committed, committed, Option.filter]

/-- **Replay beyond a sequence number** applies the last of the committed changes. -/
theorem Logs.walChanges_beyond (logs : Logs wal l) (lsn : Nat) :
    ∃ lost, walChanges (committedRecords (wal.file.filter (lsn < ·.1))) =
      (l.done l.logged).drop lost := by
  rw [committedRecords_filter logs.ascending logs.closed, ← logs.walChanges_committedRecords]
  have sorted : Ascending (committedRecords wal.file) := List.Pairwise.filter _ logs.ascending
  obtain ⟨front, back, split, kept, -⟩ := sorted.exists_split lsn
  refine ⟨(walChanges front).length, ?_⟩
  rw [kept, split, walChanges_append, List.drop_left]

end Ledger

end MoodengSQL
