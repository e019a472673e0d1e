import MoodengSQL.Log.Fresh

/-!
# What a power loss leaves of the log

`append` writes a record and asks the file system to make the log durable after
every `WAL_SYNC_BATCH` records only; a flush, a checkpoint and a truncation do so at
once. A power loss keeps what is durable and any number of the bytes behind it. The
count of the records that are not durable yet is kept in memory, so that a process
that opens the log starts it anew.
-/

namespace MoodengSQL

open Foundation

/-- `WAL_SYNC_BATCH`. -/
def WAL_SYNC_BATCH : Nat := 10

/-- The log over its file, with the number of bytes that are durable and the
`unsynced_writes`. -/
structure SyncedLog where
  file : WalFile
  synced : Nat
  unsyncedWrites : Nat

/-- A call on the log, or another process that opens it. -/
inductive SyncedCall where
  | append (op : WalOp)
  | flush
  | markCheckpoint
  | truncate
  | reopen

namespace SyncedLog

/-- The log of a fresh directory. -/
def fresh : SyncedLog := { file := .open none, synced := 0, unsyncedWrites := 0 }

/-- The bytes of the file. -/
def bytes (log : SyncedLog) : List UInt8 := log.file.bytes.getD []

/-- `flush`: everything in the file is durable. -/
def flush (log : SyncedLog) : SyncedLog :=
  { log with synced := log.bytes.length, unsyncedWrites := 0 }

/-- `append`. -/
def append (codec : Bincode) (log : SyncedLog) (op : WalOp) : SyncedLog :=
  let written :=
    { log with file := log.file.append codec op, unsyncedWrites := log.unsyncedWrites + 1 }
  if WAL_SYNC_BATCH ≤ written.unsyncedWrites then written.flush else written

/-- `truncate`. The emptied file is durable. -/
def truncate (log : SyncedLog) : SyncedLog :=
  { log.flush with file := log.file.truncate, synced := 0 }

/-- What a call leaves of `wal.log`. -/
def call (codec : Bincode) (log : SyncedLog) : SyncedCall → SyncedLog
  | .append op => log.append codec op
  | .flush => log.flush
  | .markCheckpoint => log.flush
  | .truncate => log.truncate
  | .reopen => { log with file := .open log.file.bytes, unsyncedWrites := 0 }

/-- What calls leave, one after the other. -/
def run (codec : Bincode) (log : SyncedLog) (calls : List SyncedCall) : SyncedLog :=
  calls.foldl (SyncedLog.call codec) log

/-- What a power loss may leave of the file. -/
def PowerLoss (log : SyncedLog) (left : List UInt8) : Prop :=
  ∃ n, log.synced ≤ n ∧ left = log.bytes.take n

end SyncedLog

/-- The records in the log after a call, given those before it. -/
def SyncedCall.records (log : SyncedLog) (records : List WalRecord) :
    SyncedCall → List WalRecord
  | .append op => records ++ [(log.file.lsn + 1, op)]
  | .truncate => []
  | _ => records

/-- The records appended since the last truncation, behind those given if there was none. -/
def SyncedLog.expected (codec : Bincode) :
    SyncedLog → List WalRecord → List SyncedCall → List WalRecord
  | _, records, [] => records
  | log, records, call :: rest =>
      (log.call codec call).expected codec (call.records log records) rest

/-- An append does not wrap the counter, and its operation is one that `bincode` reads
back and whose length fits its field. -/
def SyncedCall.Admitted (codec : Bincode) (log : SyncedLog) : SyncedCall → Prop
  | .append op => log.file.lsn.toNat + 1 < 2 ^ 64 ∧ codec.Fits op
  | _ => True

/-- Every call of a run is admitted. -/
def SyncedLog.Admits (codec : Bincode) : SyncedLog → List SyncedCall → Prop
  | _, [] => True
  | log, call :: rest => call.Admitted codec log ∧ (log.call codec call).Admits codec rest

/-- The number of times another process opens the log. -/
def reopenings (calls : List SyncedCall) : Nat :=
  calls.countP fun call => match call with
    | .reopen => true
    | _ => false

namespace SyncedLog

variable {codec : Bincode}

/-- The log has the records, and all but some of the last of them are durable: those
this process has counted, and some that were written before it opened the log. -/
structure Holds (codec : Bincode) (log : SyncedLog) (records : List WalRecord)
    (before : Nat) : Prop where
  bytes : log.file.bytes = some (codec.encodeAll records)
  fits : ∀ record ∈ records, codec.Fits record.2
  intact : log.file.Intact codec records
  durable : ∃ first last, records = first ++ last ∧
    log.synced = (codec.encodeAll first).length ∧ last.length ≤ before + log.unsyncedWrites
  counted : log.unsyncedWrites < WAL_SYNC_BATCH

variable {log : SyncedLog} {records : List WalRecord} {before : Nat}

theorem Holds.bytes_eq (holds : log.Holds codec records before) :
    log.bytes = codec.encodeAll records := by
  rw [SyncedLog.bytes, holds.bytes]
  rfl

/-- What is durable may be more than is asked for. -/
theorem Holds.mono (holds : log.Holds codec records before) {more : Nat} (le : before ≤ more) :
    log.Holds codec records more := by
  obtain ⟨first, last, split, synced, few⟩ := holds.durable
  exact ⟨holds.bytes, holds.fits, holds.intact,
    ⟨first, last, split, synced, few.trans (Nat.add_le_add_right le _)⟩, holds.counted⟩

/-- A log with the records is durable after a flush. -/
theorem holds_flush (bytes : log.file.bytes = some (codec.encodeAll records))
    (fits : ∀ record ∈ records, codec.Fits record.2) (intact : log.file.Intact codec records)
    (before : Nat) : log.flush.Holds codec records before where
  bytes := bytes
  fits := fits
  intact := intact
  durable := by
    refine ⟨records, [], (List.append_nil records).symm, ?_, Nat.zero_le _⟩
    rw [flush, SyncedLog.bytes, bytes]
    rfl
  counted := Nat.succ_pos _

theorem holds_fresh (codec : Bincode) : fresh.Holds codec [] 0 where
  bytes := rfl
  fits := fun _ member => (by cases member)
  intact := WalFile.Intact.truncate fresh.file
  durable := ⟨[], [], rfl, rfl, Nat.le_refl _⟩
  counted := Nat.succ_pos _

theorem Holds.append (holds : log.Holds codec records before) {op : WalOp} (fits : codec.Fits op)
    (room : log.file.lsn.toNat + 1 < 2 ^ 64) :
    (log.append codec op).Holds codec (records ++ [(log.file.lsn + 1, op)]) before := by
  have bytes : (log.file.append codec op).bytes =
      some (codec.encodeAll (records ++ [(log.file.lsn + 1, op)])) := by
    rw [WalFile.append, holds.bytes, Bincode.encodeAll, Bincode.encodeAll, List.flatMap_append,
      List.flatMap_singleton]
    rfl
  have fitting : ∀ record ∈ records ++ [(log.file.lsn + 1, op)], codec.Fits record.2 := by
    intro record member
    rcases List.mem_append.mp member with old | new
    · exact holds.fits record old
    · rw [List.mem_singleton.mp new]
      exact fits
  have intact := holds.intact.append fits room
  unfold SyncedLog.append
  dsimp only
  split
  · exact holds_flush bytes fitting intact before
  · rename_i few
    obtain ⟨first, last, split, synced, lag⟩ := holds.durable
    refine ⟨bytes, fitting, intact, ⟨first, last ++ [(log.file.lsn + 1, op)], ?_, synced, ?_⟩,
      Nat.lt_of_not_le few⟩
    · rw [split, List.append_assoc]
    · rw [List.length_append]
      exact Nat.succ_le_succ lag

theorem holds_truncate (log : SyncedLog) (before : Nat) :
    log.truncate.Holds codec [] before where
  bytes := rfl
  fits := fun _ member => (by cases member)
  intact := WalFile.Intact.truncate log.file
  durable := ⟨[], [], rfl, rfl, Nat.zero_le _⟩
  counted := Nat.succ_pos _

/-- A process that opens the log finds its records, and counts from zero again. -/
theorem Holds.reopen (holds : log.Holds codec records before) :
    (log.call codec .reopen).Holds codec records (before + (WAL_SYNC_BATCH - 1)) where
  bytes := by
    change some (log.file.bytes.getD []) = _
    rw [holds.bytes]
    rfl
  fits := holds.fits
  intact := by
    obtain ⟨bytes, content, whole⟩ := holds.intact.whole
    refine ⟨⟨bytes, ?_, whole⟩, holds.intact.positive, holds.intact.increasing,
      fun record member => ?_⟩
    · change some (log.file.bytes.getD []) = _
      rw [content]
      rfl
    · rw [← whole.readAll_eq (readEntry_progress codec)] at member
      change record.1 ≤ (WalFile.open log.file.bytes).lsn
      rw [content]
      exact le_lsn_open member
  durable := by
    obtain ⟨first, last, split, synced, lag⟩ := holds.durable
    have := holds.counted
    exact ⟨first, last, split, synced, by dsimp only [call]; omega⟩
  counted := Nat.succ_pos _

/-- A run leaves the records it is expected to, all but few of them durable. -/
theorem Holds.run (holds : log.Holds codec records before) (calls : List SyncedCall)
    (admits : log.Admits codec calls) :
    (log.run codec calls).Holds codec (log.expected codec records calls)
      (before + (WAL_SYNC_BATCH - 1) * reopenings calls) := by
  induction calls generalizing log records before with
  | nil => exact holds
  | cons call rest ih =>
      obtain ⟨admitted, admits⟩ := admits
      cases call with
      | append op => exact ih (holds.append admitted.2 admitted.1) admits
      | flush => exact ih (holds_flush holds.bytes holds.fits holds.intact before) admits
      | markCheckpoint => exact ih (holds_flush holds.bytes holds.fits holds.intact before) admits
      | truncate => exact ih (holds_truncate log before) admits
      | reopen =>
          have counts : reopenings (.reopen :: rest) = reopenings rest + 1 :=
            List.countP_cons_of_pos rfl
          rw [counts, Nat.mul_add_one, Nat.add_comm (_ * _), ← Nat.add_assoc]
          exact ih holds.reopen admits

/-- **A power loss takes only the last records.** After every run of appends, flushes,
checkpoint marks, truncations and restarts on a fresh directory, a power loss leaves
a file from which exactly the first of the records appended since the last truncation
are replayed. All but at most `WAL_SYNC_BATCH - 1` of them are, if no process was
restarted, and as many fewer for each that was. -/
theorem power_loss_takes_last (codec : Bincode) (calls : List SyncedCall)
    (admits : fresh.Admits codec calls) (left : List UInt8)
    (lost : (fresh.run codec calls).PowerLoss left) :
    ∃ kept gone, fresh.expected codec [] calls = kept ++ gone ∧
      gone.length ≤ (WAL_SYNC_BATCH - 1) * (reopenings calls + 1) ∧
      codec.replayFromBytes left 0 = kept := by
  have holds := (holds_fresh codec).run calls admits
  obtain ⟨n, enough, rfl⟩ := lost
  obtain ⟨first, last, split, synced, lag⟩ := holds.durable
  let size := fun record => (codec.encodeWalEntry record).length
  have read : codec.replayFromBytes ((fresh.run codec calls).bytes.take n) 0 =
      wholeWithin size n (first ++ last) := by
    rw [holds.bytes_eq, split, Bincode.replayFromBytes, readLoop_eq_filter]
    have fits : ∀ record ∈ first ++ last, codec.Fits record.2 := split ▸ holds.fits
    have whole := readAll_take_encoded (readEntry_progress codec)
      (fun record member => readEntry_append (fits record member))
      (fun record member _ cut => readEntry_torn (fits record member) cut) n
    rw [Bincode.encodeAll, whole]
    refine List.filter_eq_self.mpr fun record member => decide_eq_true ?_
    refine holds.intact.positive record ?_
    rw [split]
    exact (wholeWithin_isPrefix _ n _).subset member
  have durable : (first.map size).sum ≤ n := by
    rw [synced, Bincode.encodeAll, List.length_flatMap] at enough
    exact enough
  rw [wholeWithin_append size durable] at read
  obtain ⟨gone, rest⟩ := wholeWithin_isPrefix size (n - (first.map size).sum) last
  refine ⟨first ++ wholeWithin size (n - (first.map size).sum) last, gone, ?_, ?_, read⟩
  · rw [split, List.append_assoc, rest]
  · have short : gone.length ≤ last.length := by
      rw [← rest, List.length_append]
      exact Nat.le_add_left _ _
    have few := holds.counted
    rw [Nat.zero_add] at lag
    rw [Nat.mul_add_one]
    omega

/-- Two records, of which the power loss leaves the first and a part of the second. -/
theorem power_loss_takes_last_two :
    ∃ kept gone, [((1 : UInt64), WalOp.begin 7), (2, .commit 7)] = kept ++ gone ∧
      gone.length ≤ 9 ∧
      Bincode.control.replayFromBytes ((Bincode.control.encodeAll
        [(1, .begin 7), (2, .commit 7)]).take 30) 0 = kept := by
  have begins : Bincode.control.Fits (.begin 7) := ⟨by decide, by decide⟩
  have commits : Bincode.control.Fits (.commit 7) := ⟨by decide, by decide⟩
  exact power_loss_takes_last Bincode.control [.append (.begin 7), .append (.commit 7)]
    ⟨⟨by decide, begins⟩, ⟨by decide, commits⟩, trivial⟩ _ ⟨30, Nat.zero_le _, by decide +kernel⟩

/-- Nine records of each of two processes, of which none is durable. -/
example :
    let nine := List.replicate 9 (SyncedCall.append (.begin 1))
    let log := fresh.run Bincode.control (nine ++ [.reopen] ++ nine)
    log.synced = 0 ∧ log.bytes.length = 18 * 28 := by
  decide +kernel

end SyncedLog

end MoodengSQL
