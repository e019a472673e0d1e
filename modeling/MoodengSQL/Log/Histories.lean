import MoodengSQL.Replay.Serial

/-!
# Histories of the log

The log over process lifetimes: ids are handed out, records are appended by any
session in any order, checkpoints are taken, and the process crashes and opens
the log again. The counter of transaction ids is not kept on disk. As long as no
id is handed out that a record carries which replay would read, no id among those
records belongs to transactions of two lifetimes, and none has two `Begin` records.
-/

namespace MoodengSQL

/-- The ids of the `Begin` records. -/
def beginIds (entries : List WalEntry) : List Nat :=
  entries.filterMap fun entry => match entry.2 with
    | .begin id => some id
    | _ => none

theorem beginIds_append (first second : List WalEntry) :
    beginIds (first ++ second) = beginIds first ++ beginIds second :=
  List.filterMap_append

theorem beginIds_of_not_begin {lsn : Nat} {op : WalOp} (notBegin : ∀ id, op ≠ .begin id) :
    beginIds [(lsn, op)] = [] := by
  cases op with
  | begin id => exact absurd rfl (notBegin id)
  | _ => rfl

theorem beginIds_sublist {first second : List WalEntry} (sublist : first.Sublist second) :
    (beginIds first).Sublist (beginIds second) :=
  sublist.filterMap _

/-- A `Begin` record carries its id. -/
theorem exists_of_mem_beginIds {entries : List WalEntry} {id : Nat}
    (member : id ∈ beginIds entries) : ∃ entry ∈ entries, entry.2.txnId = id := by
  obtain ⟨⟨lsn, op⟩, listed, same⟩ := List.mem_filterMap.mp member
  cases op with
  | begin other =>
      cases same
      exact ⟨_, listed, rfl⟩
  | _ => cases same

namespace WriteAheadLog

/-- The records replay would read if the log were opened now. -/
def readable (wal : WriteAheadLog) : List WalEntry :=
  wal.file.filter (readCheckpointLsn wal.checkpointFile < ·.1)

/-- The id has been handed out since the log was opened. -/
def HandedOut (wal : WriteAheadLog) (id : Nat) : Prop := 0 < id ∧ id < wal.nextTxnId

theorem readable_append (wal : WriteAheadLog) (op : WalOp) :
    (wal.append op).readable = wal.readable ++
      [(wal.lsn + 1, op)].filter (readCheckpointLsn wal.checkpointFile < ·.1) :=
  List.filter_append ..

/-- The next id is none that a record carries which replay would read. -/
def NextUnread (wal : WriteAheadLog) : Prop :=
  ∀ entry ∈ wal.readable, entry.2.txnId ≠ wal.nextTxnId

end WriteAheadLog

/-- A record of the log, and the lifetime it was written in. -/
abbrev LifetimeEntry := Nat × WalEntry

/-- The log in a process: the number of its lifetime, the records of the file, each
with the lifetime it was written in, and the ids handed out whose `Begin` record is
not yet written. -/
structure Process where
  wal : WriteAheadLog
  lifetime : Nat
  records : List LifetimeEntry
  pending : List Nat

namespace Process

/-- A record is written. -/
def write (p : Process) (op : WalOp) : Process :=
  { p with
    wal := p.wal.append op
    records := p.records ++ [(p.lifetime, (p.wal.lsn + 1, op))] }

/-- The records replay would read, each with the lifetime it was written in. -/
def readable (p : Process) : List LifetimeEntry :=
  p.records.filter (WriteAheadLog.readCheckpointLsn p.wal.checkpointFile < ·.2.1)

/-- A record that is readable after a write was so before, or is the one written. -/
theorem mem_readable_write {p : Process} {op : WalOp} {record : LifetimeEntry}
    (member : record ∈ (p.write op).readable) :
    record ∈ p.readable ∨ record = (p.lifetime, (p.wal.lsn + 1, op)) := by
  obtain ⟨member, beyond⟩ := List.mem_filter.mp member
  rcases List.mem_append.mp member with before | last
  · exact .inl (List.mem_filter.mpr ⟨before, beyond⟩)
  · exact .inr (List.mem_singleton.mp last)

end Process

/-- The histories of one data directory, at every point at which the log or its
counters change. No id is handed out that a record carries which replay would read,
and records are those of transactions whose ids have been handed out. -/
inductive History : Process → Prop
  | start : History ⟨.open [] none, 0, [], []⟩
  | alloc {p : Process} (history : History p) (unread : p.wal.NextUnread) :
      History { p with wal := p.wal.allocTxnId.2, pending := p.wal.nextTxnId :: p.pending }
  | begin {p : Process} {id : Nat} (history : History p) (pending : id ∈ p.pending) :
      History { p.write (.begin id) with pending := p.pending.erase id }
  | append {p : Process} {op : WalOp} (history : History p) (notBegin : ∀ id, op ≠ .begin id)
      (handed : p.wal.HandedOut op.txnId) : History (p.write op)
  | mark {p : Process} (history : History p) :
      History { p with wal := p.wal.markCheckpoint p.wal.lsn }
  | truncate {p : Process} (history : History p) :
      History { p with wal := p.wal.truncate, records := [] }
  | reopen {p : Process} (history : History p) (kept : Nat) :
      History ⟨.open (p.wal.file.take kept) p.wal.checkpointFile, p.lifetime + 1,
        p.records.take kept, []⟩

/-- The records of a lifetime carry ids it has handed out. Those of earlier lifetimes
that replay would read carry ids it has not come to yet, so that no two lifetimes
share an id. -/
structure Unmixed (p : Process) : Prop where
  listed : p.records.map Prod.snd = p.wal.file
  below : ∀ entry ∈ p.wal.file, entry.1 ≤ p.wal.lsn
  positive : ∀ record ∈ p.records, 0 < record.2.2.txnId
  upTo : ∀ record ∈ p.records, record.1 ≤ p.lifetime
  own : ∀ record ∈ p.records, record.1 = p.lifetime → record.2.2.txnId < p.wal.nextTxnId
  earlier : ∀ record ∈ p.readable, record.1 ≠ p.lifetime →
    p.wal.nextTxnId ≤ record.2.2.txnId
  apart : ∀ first ∈ p.readable, ∀ second ∈ p.readable,
    first.2.2.txnId = second.2.2.txnId → first.1 = second.1

/-- The ids still to be written have been handed out, and no two `Begin` records that
are readable or still to be written carry the same. -/
structure Numbered (p : Process) : Prop where
  positive : 0 < p.wal.nextTxnId
  handed : ∀ id ∈ p.pending, p.wal.HandedOut id
  distinct : (beginIds p.wal.readable ++ p.pending).Nodup

namespace Unmixed

variable {p : Process}

/-- Which records replay would read depends on the file only. -/
theorem map_readable (unmixed : Unmixed p) : p.readable.map Prod.snd = p.wal.readable := by
  unfold Process.readable WriteAheadLog.readable
  rw [← unmixed.listed, List.filter_map]
  rfl

theorem mem_readable (unmixed : Unmixed p) {record : LifetimeEntry}
    (member : record ∈ p.readable) : record.2 ∈ p.wal.readable :=
  unmixed.map_readable ▸ List.mem_map_of_mem member

theorem alloc (unmixed : Unmixed p) (unread : p.wal.NextUnread) (pending : List Nat) :
    Unmixed { p with wal := p.wal.allocTxnId.2, pending } where
  listed := unmixed.listed
  below := unmixed.below
  positive := unmixed.positive
  upTo := unmixed.upTo
  own record member now := Nat.lt_succ_of_lt (unmixed.own record member now)
  earlier record member before :=
    Nat.lt_of_le_of_ne (unmixed.earlier record member before)
      (unread record.2 (unmixed.mem_readable member)).symm
  apart := unmixed.apart

/-- A record of a transaction whose id has been handed out shares it with none of an
earlier lifetime. -/
theorem write (unmixed : Unmixed p) {op : WalOp} (handed : p.wal.HandedOut op.txnId)
    (pending : List Nat) : Unmixed { p.write op with pending } := by
  -- an earlier record carries an id that has not been handed out
  have current : ∀ record ∈ p.readable, record.2.2.txnId = op.txnId →
      record.1 = p.lifetime := by
    intro record member same
    by_contra before
    exact absurd (same ▸ unmixed.earlier record member before) (Nat.not_le.mpr handed.2)
  refine ⟨?_, ?_, ?_, ?_, ?_, ?_, ?_⟩
  · change (p.records ++ [_]).map Prod.snd = p.wal.file ++ [_]
    rw [List.map_append, unmixed.listed]
    rfl
  · intro entry member
    rcases List.mem_append.mp member with before | last
    · exact Nat.le_succ_of_le (unmixed.below entry before)
    · rw [List.mem_singleton.mp last]
      exact Nat.le_refl _
  · exact List.forall_mem_append.mpr ⟨unmixed.positive, List.forall_mem_singleton.mpr handed.1⟩
  · exact List.forall_mem_append.mpr
      ⟨unmixed.upTo, List.forall_mem_singleton.mpr (Nat.le_refl _)⟩
  · exact List.forall_mem_append.mpr
      ⟨unmixed.own, List.forall_mem_singleton.mpr fun _ => handed.2⟩
  · intro record member before
    rcases Process.mem_readable_write member with old | rfl
    · exact unmixed.earlier record old before
    · exact absurd rfl before
  · intro first member second member' same
    rcases Process.mem_readable_write member with old | rfl <;>
      rcases Process.mem_readable_write member' with old' | rfl
    · exact unmixed.apart first old second old' same
    · exact current first old same
    · exact (current second old' same.symm).symm
    · rfl

/-- A checkpoint hides every record that is in the log. -/
theorem readable_mark (unmixed : Unmixed p) :
    Process.readable { p with wal := p.wal.markCheckpoint p.wal.lsn } = [] := by
  refine List.filter_eq_nil_iff.mpr fun record member => ?_
  have low := unmixed.below record.2 (unmixed.listed ▸ List.mem_map_of_mem member)
  exact decide_eq_true_iff.not.mpr (Nat.not_lt.mpr low)

theorem mark (unmixed : Unmixed p) :
    Unmixed { p with wal := p.wal.markCheckpoint p.wal.lsn } := by
  refine ⟨unmixed.listed, unmixed.below, unmixed.positive, unmixed.upTo, unmixed.own, ?_, ?_⟩
  all_goals
    rw [unmixed.readable_mark]
    exact fun _ => nofun

theorem truncate (wal : WriteAheadLog) (lifetime : Nat) (pending : List Nat) :
    Unmixed ⟨wal.truncate, lifetime, [], pending⟩ := by
  constructor <;> simp [WriteAheadLog.truncate, Process.readable]

theorem le_readMaxLsn (file : List WalEntry) :
    ∀ entry ∈ file, entry.1 ≤ WriteAheadLog.readMaxLsn file := by
  have maximal : ∀ (entries : List WalEntry) (start : Nat),
      start ≤ entries.foldl (fun acc entry => max acc entry.1) start ∧
        ∀ entry ∈ entries, entry.1 ≤ entries.foldl (fun acc entry => max acc entry.1) start := by
    intro entries
    induction entries with
    | nil => exact fun start => ⟨Nat.le_refl _, nofun⟩
    | cons first rest ih =>
        intro start
        obtain ⟨above, all⟩ := ih (max start first.1)
        refine ⟨(Nat.le_max_left _ _).trans above, fun entry member => ?_⟩
        rcases List.mem_cons.mp member with rfl | member
        · exact (Nat.le_max_right _ _).trans above
        · exact all entry member
  exact (maximal file 0).2

/-- Opening the log starts a lifetime that has not handed out any id. -/
theorem reopen (unmixed : Unmixed p) (kept : Nat) :
    Unmixed ⟨.open (p.wal.file.take kept) p.wal.checkpointFile, p.lifetime + 1,
      p.records.take kept, []⟩ := by
  have kept_subset : ∀ record ∈ p.records.take kept, record ∈ p.records := fun _ =>
    List.mem_of_mem_take
  have readable_subset : ∀ record ∈ Process.readable ⟨.open (p.wal.file.take kept)
      p.wal.checkpointFile, p.lifetime + 1, p.records.take kept, []⟩, record ∈ p.readable := by
    intro record member
    obtain ⟨member, beyond⟩ := List.mem_filter.mp member
    exact List.mem_filter.mpr ⟨kept_subset record member, beyond⟩
  refine ⟨?_, le_readMaxLsn _, ?_, ?_, ?_, ?_, ?_⟩
  · change (p.records.take kept).map Prod.snd = p.wal.file.take kept
    rw [List.map_take, unmixed.listed]
  · exact fun record member => unmixed.positive record (kept_subset record member)
  · exact fun record member => Nat.le_succ_of_le (unmixed.upTo record (kept_subset record member))
  · intro record member now
    exact absurd (now ▸ unmixed.upTo record (kept_subset record member)) (Nat.not_succ_le_self _)
  · exact fun record member _ =>
      unmixed.positive record (List.mem_of_mem_filter (readable_subset record member))
  · exact fun first member second member' =>
      unmixed.apart first (readable_subset first member) second (readable_subset second member')

end Unmixed

namespace Numbered

variable {p : Process}

theorem alloc (numbered : Numbered p) (unread : p.wal.NextUnread) :
    Numbered { p with wal := p.wal.allocTxnId.2, pending := p.wal.nextTxnId :: p.pending } := by
  have unused : p.wal.nextTxnId ∉ beginIds p.wal.readable ++ p.pending := by
    intro used
    rcases List.mem_append.mp used with begun | pending
    · obtain ⟨entry, member, same⟩ := exists_of_mem_beginIds begun
      exact unread entry member same
    · exact Nat.lt_irrefl _ (numbered.handed _ pending).2
  refine ⟨Nat.succ_pos _, fun id member => ?_, List.nodup_middle.mpr
    (List.nodup_cons.mpr ⟨unused, numbered.distinct⟩)⟩
  rcases List.mem_cons.mp member with rfl | member
  · exact ⟨numbered.positive, Nat.lt_succ_self _⟩
  · exact (numbered.handed id member).imp_right Nat.lt_succ_of_lt

/-- A record is written, and its id is no longer pending if it is that of a `Begin`. -/
theorem write (numbered : Numbered p) {op : WalOp} {pending : List Nat}
    (moved : (beginIds [(p.wal.lsn + 1, op)] ++ pending).Perm p.pending) :
    Numbered { p.write op with pending } := by
  refine ⟨numbered.positive, fun id member => ?_, ?_⟩
  · exact numbered.handed id (moved.subset (List.mem_append_right _ member))
  · change (beginIds (p.wal.append op).readable ++ pending).Nodup
    rw [WriteAheadLog.readable_append, beginIds_append, List.append_assoc]
    have written : (beginIds ([(p.wal.lsn + 1, op)].filter
        (WriteAheadLog.readCheckpointLsn p.wal.checkpointFile < ·.1)) ++ pending).Sublist
        (beginIds [(p.wal.lsn + 1, op)] ++ pending) :=
      (beginIds_sublist List.filter_sublist).append_right pending
    exact ((moved.append_left _).nodup_iff.mpr numbered.distinct).sublist
      (written.append_left _)

/-- Fewer records are readable than before. -/
theorem hide (numbered : Numbered p) {q : Process} (positive : 0 < q.wal.nextTxnId)
    (readable : q.wal.readable.Sublist p.wal.readable) (pending : q.pending.Sublist p.pending)
    (handed : ∀ id ∈ q.pending, q.wal.HandedOut id) : Numbered q :=
  ⟨positive, handed, numbered.distinct.sublist ((beginIds_sublist readable).append pending)⟩

end Numbered

/-- **No two lifetimes share an id** among the records that replay would read, and no
two of their `Begin` records carry the same. -/
theorem History.numbered {p : Process} (history : History p) : Unmixed p ∧ Numbered p := by
  induction history with
  | start => exact ⟨by constructor <;> simp [WriteAheadLog.open, Process.readable],
      by constructor <;> simp [WriteAheadLog.open, WriteAheadLog.readable, beginIds]⟩
  | alloc _ unread ih => exact ⟨ih.1.alloc unread _, ih.2.alloc unread⟩
  | @begin p id _ pending ih =>
      have handed : p.wal.HandedOut (WalOp.begin id).txnId := ih.2.handed id pending
      exact ⟨ih.1.write handed _, ih.2.write (List.perm_cons_erase pending).symm⟩
  | append _ notBegin handed ih =>
      refine ⟨ih.1.write handed _, ih.2.write ?_⟩
      rw [beginIds_of_not_begin notBegin]
      exact List.Perm.refl _
  | mark _ ih =>
      refine ⟨ih.1.mark, ih.2.hide ih.2.positive ?_ (List.Sublist.refl _) ih.2.handed⟩
      rw [← ih.1.mark.map_readable, ih.1.readable_mark]
      exact List.nil_sublist _
  | truncate _ ih =>
      exact ⟨.truncate _ _ _, ih.2.hide ih.2.positive (List.nil_sublist _) (List.Sublist.refl _)
        ih.2.handed⟩
  | reopen _ kept ih =>
      exact ⟨ih.1.reopen kept, ih.2.hide Nat.zero_lt_one ((List.take_sublist _ _).filter _)
        (List.nil_sublist _) fun _ pending => absurd pending List.not_mem_nil⟩

end MoodengSQL
