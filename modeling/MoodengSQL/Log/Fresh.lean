import MoodengSQL.Log.Reopen

/-!
# Fresh sequence numbers

Two loops read the log: `read_max_lsn` skips over bodies and `replay_since` checks them.
On every content they stay aligned for as long as the second one goes on, so that the
first number issued behind an `open` is new. A log that is whole stays whole under appends
and truncations, unless its counter or the length field of a record wraps around.
-/

namespace MoodengSQL

open Foundation

variable {codec : Bincode}

section Scanners

/-- A body has room for its checksum. -/
theorem four_le_of_readHead {bytes rest : List UInt8} {lsn : UInt64} {bodyLen : Nat}
    (read : readHead bytes = some ((lsn, bodyLen), rest)) : 4 ≤ bodyLen := by
  simp only [readHead, Option.bind_eq_bind, Option.bind_eq_some_iff, Prod.exists] at read
  obtain ⟨_, _, -, _, _, -, read⟩ := read
  split at read
  · cases read
  · rename_i long
    cases read
    exact Nat.not_lt.mp long

/-- A record that is read is one that `read_max_lsn` visits, and both go on behind it. -/
theorem skipEntry_of_readEntry ⦃bytes : List UInt8⦄ ⦃entry : WalRecord⦄ ⦃rest : List UInt8⦄
    (read : codec.readEntry bytes = some (entry, rest)) :
    skipEntry bytes = some (entry.1, rest) := by
  simp only [Bincode.readEntry, Option.bind_eq_bind, Option.bind_eq_some_iff, Prod.exists] at read
  obtain ⟨lsn, bodyLen, afterHead, head, storedCrc, afterCrc, crcTaken, payload, afterPayload,
    payloadTaken, read⟩ := read
  obtain ⟨rfl, crcSize⟩ := takeExact_eq_some.mp crcTaken
  obtain ⟨rfl, payloadSize⟩ := takeExact_eq_some.mp payloadTaken
  have long : 4 ≤ bodyLen := four_le_of_readHead head
  split at read
  · cases read
  · obtain ⟨op, -, same⟩ := Option.bind_eq_some_iff.mp read
    cases same
    have body : (storedCrc ++ payload).length = bodyLen := by
      rw [List.length_append]
      omega
    simp only [skipEntry, head, Option.bind_eq_bind, Option.bind_some]
    rw [← List.append_assoc, List.drop_left' body]

theorem takeExact_append_tail {n : Nat} {bytes first rest : List UInt8}
    (taken : takeExact n bytes = some (first, rest)) (tail : List UInt8) :
    takeExact n (bytes ++ tail) = some (first, rest ++ tail) := by
  obtain ⟨rfl, size⟩ := takeExact_eq_some.mp taken
  rw [List.append_assoc]
  exact takeExact_append size _

/-- A record is read in the same way whatever follows it. -/
theorem readEntry_local (codec : Bincode) : Local codec.readEntry := by
  intro bytes entry rest read tail
  simp only [Bincode.readEntry, readHead, Option.bind_eq_bind, Option.bind_eq_some_iff,
    Prod.exists] at read
  obtain ⟨lsn, bodyLen, afterHead, ⟨lsnBytes, afterLsn, lsnTaken, lenBytes, afterLen, lenTaken,
    head⟩, storedCrc, afterCrc, crcTaken, payload, afterPayload, payloadTaken, read⟩ := read
  split at head
  · cases head
  · rename_i long
    cases head
    split at read
    · cases read
    · rename_i agrees
      obtain ⟨op, decoded, same⟩ := Option.bind_eq_some_iff.mp read
      cases same
      simp only [Bincode.readEntry, readHead, takeExact_append_tail lsnTaken,
        takeExact_append_tail lenTaken, Option.bind_eq_bind, Option.bind_some, if_neg long,
        takeExact_append_tail crcTaken, takeExact_append_tail payloadTaken, if_neg agrees,
        decoded]

end Scanners

/-- A call on the log. -/
inductive WalCall where
  | append (op : WalOp)
  | truncate

namespace WalFile

/-- `WriteAheadLog::truncate`: the file is emptied and numbering starts again. -/
def truncate (_ : WalFile) : WalFile := { bytes := some [], lsn := 0 }

/-- What a call leaves. -/
def call (codec : Bincode) (wal : WalFile) : WalCall → WalFile
  | .append op => wal.append codec op
  | .truncate => wal.truncate

/-- What calls leave, one after the other. -/
def run (codec : Bincode) (wal : WalFile) (calls : List WalCall) : WalFile :=
  calls.foldl (WalFile.call codec) wal

/-- The records that were appended since the last truncation, behind those given if
there was none, each under the number that its append returned. -/
def expected (codec : Bincode) : WalFile → List WalRecord → List WalCall → List WalRecord
  | _, records, [] => records
  | wal, records, .append op :: rest =>
      (wal.append codec op).expected codec
        (records ++ [((wal.append codec op).lsn, op)]) rest
  | wal, _, .truncate :: rest => wal.truncate.expected codec [] rest

/-- No append wraps the counter, and each operation is one that `bincode` reads back
and whose length fits its field. -/
def Admits (codec : Bincode) : WalFile → List WalCall → Prop
  | _, [] => True
  | wal, .append op :: rest =>
      wal.lsn.toNat + 1 < 2 ^ 64 ∧ codec.Fits op ∧ (wal.append codec op).Admits codec rest
  | wal, .truncate :: rest => wal.truncate.Admits codec rest

/-- The log has exactly the records, which are numbered upwards from one on, and its
counter is not behind them. -/
structure Intact (codec : Bincode) (wal : WalFile) (records : List WalRecord) : Prop where
  whole : ∃ bytes, wal.bytes = some bytes ∧ Whole codec.readEntry bytes records
  positive : ∀ record ∈ records, 0 < record.1
  increasing : records.Pairwise (·.1 < ·.1)
  counted : ∀ record ∈ records, record.1 ≤ wal.lsn

namespace Intact

variable {wal : WalFile} {records : List WalRecord}

/-- All of an intact log is replayed. -/
theorem replaySince (intact : wal.Intact codec records) : wal.replaySince codec 0 = records := by
  obtain ⟨bytes, content, whole⟩ := intact.whole
  rw [WalFile.replaySince, content]
  simp only [readLoop_eq_filter, whole.readAll_eq (readEntry_progress codec)]
  exact List.filter_eq_self.mpr fun record member => decide_eq_true (intact.positive record member)

theorem truncate (wal : WalFile) : wal.truncate.Intact codec [] :=
  ⟨⟨[], rfl, .nil⟩, nofun, .nil, nofun⟩

theorem append (intact : wal.Intact codec records) {op : WalOp} (fits : codec.Fits op)
    (room : wal.lsn.toNat + 1 < 2 ^ 64) :
    (wal.append codec op).Intact codec (records ++ [((wal.append codec op).lsn, op)]) := by
  have next : (wal.lsn + 1).toNat = wal.lsn.toNat + 1 := toNat_add_one room
  have later (record : WalRecord) (member : record ∈ records) : record.1 < wal.lsn + 1 := by
    have counted := intact.counted record member
    rw [UInt64.le_iff_toNat_le] at counted
    rw [UInt64.lt_iff_toNat_lt, next]
    exact Nat.lt_succ_of_le counted
  obtain ⟨bytes, content, whole⟩ := intact.whole
  refine ⟨⟨bytes ++ codec.encodeWalEntry (wal.lsn + 1, op), ?_, ?_⟩, ?_, ?_, ?_⟩
  · rw [WalFile.append, content]
    rfl
  · have read : codec.readEntry (codec.encodeWalEntry (wal.lsn + 1, op)) =
        some ((wal.lsn + 1, op), []) := by
      rw [← List.append_nil (codec.encodeWalEntry _)]
      exact readEntry_append fits []
    exact whole.append (readEntry_local codec) (.cons read .nil)
  · intro record member
    rcases List.mem_append.mp member with old | new
    · exact intact.positive record old
    · rw [List.mem_singleton.mp new, UInt64.lt_iff_toNat_lt]
      change 0 < (wal.lsn + 1).toNat
      rw [next]
      exact Nat.succ_pos _
  · apply List.pairwise_append.mpr
    refine ⟨intact.increasing, List.pairwise_singleton _ _, fun record member new last => ?_⟩
    rw [List.mem_singleton.mp last]
    exact later record member
  · intro record member
    rcases List.mem_append.mp member with old | new
    · exact UInt64.le_of_lt (later record old)
    · rw [List.mem_singleton.mp new]
      exact UInt64.le_refl _

/-- An intact log stays intact. -/
theorem run (intact : wal.Intact codec records) (calls : List WalCall)
    (admits : wal.Admits codec calls) :
    (wal.run codec calls).Intact codec (wal.expected codec records calls) := by
  induction calls generalizing wal records with
  | nil => exact intact
  | cons next rest ih =>
      cases next with
      | append op => exact ih (intact.append admits.2.1 admits.1) admits.2.2
      | truncate => exact ih (truncate wal) admits

end Intact

end WalFile

/-- The numbers that `read_max_lsn` visits cover those of the records read, so that no
record is beyond the counter of an opened log. -/
theorem le_lsn_open {bytes : List UInt8} {record : WalRecord}
    (read : record ∈ readAll codec.readEntry bytes) : record.1 ≤ (WalFile.open (some bytes)).lsn := by
  have visited := (reads_readAll (readEntry_progress codec) bytes).isPrefix skipEntry_progress
    skipEntry_of_readEntry
  exact le_foldl_max (visited.subset (List.mem_map_of_mem read)) 0

/-- **New sequence numbers are fresh.** On every content both loops over the log end, the
numbers of the records read are the first ones that `read_max_lsn` visits, and the first
append is beyond what is replayed. A log that was intact has the records appended since its
last truncation, in order. -/
theorem new_lsns_fresh (codec : Bincode) (bytes : List UInt8) :
    let wal := WalFile.open (some bytes)
    (∃ read visited, Reads codec.readEntry bytes read ∧ Reads skipEntry bytes visited ∧
      read.map Prod.fst <+: visited ∧ wal.lsn = visited.foldl max 0 ∧
      wal.replaySince codec 0 = read.filter (0 < ·.1)) ∧
    (wal.lsn.toNat < 2 ^ 64 - 1 → ∀ op, ∀ record ∈ wal.replaySince codec 0,
      record.1 < (wal.append codec op).lsn) ∧
    ∀ records, Whole codec.readEntry bytes records → (∀ record ∈ records, 0 < record.1) →
      records.Pairwise (·.1 < ·.1) → ∀ calls, wal.Admits codec calls →
        (wal.run codec calls).replaySince codec 0 = wal.expected codec records calls ∧
          (wal.expected codec records calls).Pairwise (·.1 < ·.1) := by
  intro wal
  have reads := reads_readAll (readEntry_progress codec) bytes
  have replayed : wal.replaySince codec 0 =
      (readAll codec.readEntry bytes).filter (0 < ·.1) := readLoop_eq_filter codec 0 bytes
  refine ⟨⟨_, _, reads, reads_readAll skipEntry_progress bytes,
    reads.isPrefix skipEntry_progress skipEntry_of_readEntry, rfl, replayed⟩, ?_, ?_⟩
  · intro room op record member
    rw [replayed] at member
    have counted := le_lsn_open (List.mem_of_mem_filter member)
    rw [UInt64.le_iff_toNat_le] at counted
    have next : (wal.lsn + 1).toNat = wal.lsn.toNat + 1 := toNat_add_one (by omega)
    change record.1 < wal.lsn + 1
    rw [UInt64.lt_iff_toNat_lt, next]
    exact Nat.lt_succ_of_le counted
  · intro records whole positive increasing calls admits
    have intact : wal.Intact codec records := by
      refine ⟨⟨bytes, rfl, whole⟩, positive, increasing, fun record member => ?_⟩
      rw [← whole.readAll_eq (readEntry_progress codec)] at member
      exact le_lsn_open member
    have later := intact.run calls admits
    exact ⟨later.replaySince, later.increasing⟩

/-- A log with one record, to which one is appended before a truncation and two behind it. -/
theorem new_lsns_fresh_truncated :
    let wal := WalFile.open (some (Bincode.control.encodeWalEntry (1, .begin 7)))
    (wal.run Bincode.control [.append (.commit 7), .truncate, .append (.begin 8),
      .append (.abort 8)]).replaySince Bincode.control 0 = [(1, .begin 8), (2, .abort 8)] := by
  intro wal
  have whole : Whole Bincode.control.readEntry (Bincode.control.encodeWalEntry (1, .begin 7))
      [(1, .begin 7)] := .cons (by decide +kernel) .nil
  have fits (txnId : Nat) (small : txnId < 10) : Bincode.control.Fits (.begin txnId) ∧
      Bincode.control.Fits (.commit txnId) ∧ Bincode.control.Fits (.abort txnId) := by
    interval_cases txnId
    all_goals exact ⟨⟨by decide, by decide⟩, ⟨by decide, by decide⟩, ⟨by decide, by decide⟩⟩
  have admits : wal.Admits Bincode.control [.append (.commit 7), .truncate, .append (.begin 8),
      .append (.abort 8)] :=
    ⟨by decide +kernel, (fits 7 (by decide)).2.1, by decide, (fits 8 (by decide)).1, by decide,
      (fits 8 (by decide)).2.2, trivial⟩
  exact ((new_lsns_fresh Bincode.control _).2.2 _ whole (by decide) (by decide) _ admits).1

/-- The length field of an operation of `2 ^ 32 - 4` bytes is zero. -/
theorem readEntry_of_long {record : WalRecord}
    (long : (codec.serialize record.2).length = 2 ^ 32 - 4) :
    codec.readEntry (codec.encodeWalEntry record) = none := by
  have none : readHead (codec.encodeWalEntry record) = none := by
    have lenBack : fromBeBytes (toBeBytes 4 (4 + (codec.serialize record.2).length)) = 0 := by
      rw [fromBeBytes_toBeBytes, long]
      norm_num
    rw [← List.append_nil (codec.encodeWalEntry record), encodeWalEntry_append]
    simp [readHead, takeExact_append, lenBack]
  rw [Bincode.readEntry, none]
  rfl

/-- Numbers and lengths that wrap: the second append to a log whose last number is
`2 ^ 64 - 2` is numbered zero, and an operation of `2 ^ 32 - 4` bytes has length zero. Neither
is replayed. -/
theorem wrapped_records_are_lost :
    let bytes := Bincode.control.encodeWalEntry (2 ^ 64 - 2, .begin 1)
    let calls := [WalCall.append (.commit 1), .append (.begin 2)]
    Whole Bincode.control.readEntry bytes [(2 ^ 64 - 2, .begin 1)] ∧
      (∀ op ∈ [WalOp.begin 1, .commit 1, .begin 2], Bincode.control.Fits op) ∧
      ((WalFile.open (some bytes)).run Bincode.control calls).replaySince Bincode.control 0 ≠
        (WalFile.open (some bytes)).expected Bincode.control [(2 ^ 64 - 2, .begin 1)] calls ∧
      ∀ (codec : Bincode) (op : WalOp), (codec.serialize op).length = 2 ^ 32 - 4 →
        ((WalFile.open none).run codec [.append op]).replaySince codec 0 ≠
          (WalFile.open none).expected codec [] [.append op] := by
  intro bytes calls
  refine ⟨.cons (by decide +kernel) .nil, ?_, by decide +kernel, fun codec op long kept => ?_⟩
  · intro op member
    simp only [List.mem_cons, List.not_mem_nil, or_false] at member
    rcases member with rfl | rfl | rfl
    · exact ⟨by decide, by decide⟩
    · exact ⟨by decide, by decide⟩
    · exact ⟨by decide, by decide⟩
  · have unread : readAll codec.readEntry (codec.encodeWalEntry (1, op)) = [] :=
      readAll_of_none (readEntry_of_long long)
    have lost : ((WalFile.open none).run codec [.append op]).replaySince codec 0 =
        (readAll codec.readEntry (codec.encodeWalEntry (1, op))).filter (0 < ·.1) :=
      readLoop_eq_filter codec 0 _
    rw [lost, unread] at kept
    cases kept

end MoodengSQL
