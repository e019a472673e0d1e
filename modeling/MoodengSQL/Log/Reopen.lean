import MoodengSQL.Log.Torn

/-!
# Writing to a reopened log

Opening a log finds the highest sequence number in it and appending writes at
the end of the file. On a log of whole records this continues the log; behind
torn bytes the appended records are lost to the reader. The last section
relates the byte file to the log of records the engine is modelled with.
-/

namespace MoodengSQL

open Foundation

variable {codec : Bincode}

theorem skipEntry_append {record : WalRecord} (fits : codec.Fits record.2) (rest : List UInt8) :
    skipEntry (codec.encodeWalEntry record ++ rest) = some (record.1, rest) := by
  have body : toBeBytes 4 (crc32 (codec.serialize record.2)).toNat ++
      (codec.serialize record.2 ++ rest) =
      (toBeBytes 4 (crc32 (codec.serialize record.2)).toNat ++ codec.serialize record.2) ++
        rest := (List.append_assoc _ _ _).symm
  rw [encodeWalEntry_append]
  simp only [skipEntry, readHead_append (Nat.le_add_right 4 _) fits.bodyLen_lt,
    Option.bind_eq_bind, Option.bind_some, body]
  rw [List.drop_left' (by simp)]

/-- A torn record that has its head is counted by `read_max_lsn`. -/
theorem skipEntry_torn {record : WalRecord} (fits : codec.Fits record.2) {n : Nat}
    (head : 12 ≤ n) (cut : n < (codec.encodeWalEntry record).length) :
    skipEntry ((codec.encodeWalEntry record).take n) = some (record.1, []) := by
  obtain ⟨body, rfl⟩ : ∃ body, n = 12 + body := ⟨n - 12, by omega⟩
  rw [take_encodeWalEntry]
  rw [encodeWalEntry_length] at cut
  simp only [skipEntry, readHead_append (Nat.le_add_right 4 _) fits.bodyLen_lt,
    Option.bind_eq_bind, Option.bind_some]
  rw [List.drop_eq_nil_of_le ((List.length_take_le _ _).trans (by omega))]

theorem skipEntry_progress : Progress skipEntry := by
  intro bytes lsn rest skipped
  simp only [skipEntry, Option.bind_eq_bind, Option.bind_eq_some_iff, Prod.exists] at skipped
  obtain ⟨lsn, bodyLen, afterHead, head, same⟩ := skipped
  cases same
  have := length_of_readHead head
  rw [List.length_drop]
  omega

theorem readMaxLsn_encodeAll_append {records : List WalRecord}
    (fits : ∀ record ∈ records, codec.Fits record.2) (tail : List UInt8) :
    readMaxLsn (codec.encodeAll records ++ tail) =
      (records.map Prod.fst ++ readAll skipEntry tail).foldl max 0 := by
  rw [readMaxLsn, Bincode.encodeAll, readAll_encoded skipEntry_progress
    (fun record member => skipEntry_append (fits record member))]

/-- Append operations one after the other. -/
def WalFile.appendAll (codec : Bincode) (wal : WalFile) (ops : List WalOp) : WalFile :=
  ops.foldl (WalFile.append codec) wal

/-- The records that appending writes, numbered from the one after `lsn`. -/
def appendedRecords : UInt64 → List WalOp → List WalRecord
  | _, [] => []
  | lsn, op :: rest => (lsn + 1, op) :: appendedRecords (lsn + 1) rest

theorem bytes_appendAll (codec : Bincode) (bytes : List UInt8) (lsn : UInt64)
    (ops : List WalOp) :
    (WalFile.appendAll codec ⟨some bytes, lsn⟩ ops).bytes =
      some (bytes ++ codec.encodeAll (appendedRecords lsn ops)) := by
  induction ops generalizing bytes lsn with
  | nil => simp [WalFile.appendAll, appendedRecords, Bincode.encodeAll]
  | cons op ops ih =>
      have step : WalFile.appendAll codec ⟨some bytes, lsn⟩ (op :: ops) =
          WalFile.appendAll codec
            ⟨some (bytes ++ codec.encodeWalEntry (lsn + 1, op)), lsn + 1⟩ ops := rfl
      rw [step, ih]
      simp [appendedRecords, Bincode.encodeAll]

theorem fits_of_mem_appendedRecords {ops : List WalOp} (fits : ∀ op ∈ ops, codec.Fits op)
    {lsn : UInt64} {record : WalRecord} (member : record ∈ appendedRecords lsn ops) :
    codec.Fits record.2 := by
  induction ops generalizing lsn with
  | nil => cases member
  | cons op ops ih =>
      rcases List.mem_cons.mp member with rfl | member
      · exact fits op List.mem_cons_self
      · exact ih (fun other inside => fits other (List.mem_cons_of_mem _ inside)) member

theorem toNat_add_one {lsn : UInt64} (room : lsn.toNat + 1 < 2 ^ 64) :
    (lsn + 1).toNat = lsn.toNat + 1 := by
  rw [UInt64.toNat_add]
  exact Nat.mod_eq_of_lt room

/-- Appended records are numbered from one on while the counter has room. -/
theorem lt_of_mem_appendedRecords {ops : List WalOp} {lsn : UInt64}
    (room : lsn.toNat + ops.length < 2 ^ 64) {record : WalRecord}
    (member : record ∈ appendedRecords lsn ops) : lsn < record.1 := by
  induction ops generalizing lsn with
  | nil => cases member
  | cons op ops ih =>
      rw [List.length_cons] at room
      have next : (lsn + 1).toNat = lsn.toNat + 1 := toNat_add_one (by omega)
      rcases List.mem_cons.mp member with rfl | member
      · rw [UInt64.lt_iff_toNat_lt, next]
        omega
      · have later := ih (by omega) member
        rw [UInt64.lt_iff_toNat_lt] at later ⊢
        omega

theorem toNat_max (left right : UInt64) : (max left right).toNat = max left.toNat right.toNat := by
  change (if left ≤ right then right else left).toNat = _
  split
  · simp only [UInt64.le_iff_toNat_le] at *
    omega
  · simp only [UInt64.le_iff_toNat_le] at *
    omega

/-- The highest of some sequence numbers is beyond none of them. -/
theorem le_foldl_max {lsns : List UInt64} {lsn : UInt64} (member : lsn ∈ lsns) (least : UInt64) :
    lsn ≤ lsns.foldl max least := by
  have grows (lsns : List UInt64) (least : UInt64) :
      least.toNat ≤ (lsns.foldl max least).toNat := by
    induction lsns generalizing least with
    | nil => exact Nat.le_refl _
    | cons first rest ih =>
        have later := ih (max least first)
        rw [toNat_max] at later
        exact (Nat.le_max_left _ _).trans later
  induction lsns generalizing least with
  | nil => cases member
  | cons first rest ih =>
      rcases List.mem_cons.mp member with rfl | later
      · have here := grows rest (max least lsn)
        rw [toNat_max] at here
        exact UInt64.le_iff_toNat_le.mpr ((Nat.le_max_right _ _).trans here)
      · exact ih later _

/-- What a crash during `append` leaves: whole records and a proper part of one more. -/
structure TornLog (codec : Bincode) where
  records : List WalRecord
  last : WalRecord
  cut : Nat
  proper : cut < (codec.encodeWalEntry last).length
  numbered : ∀ record ∈ last :: records, 1 ≤ record.1
  fits : ∀ record ∈ last :: records, codec.Fits record.2

namespace TornLog

/-- The bytes of `wal.log`. -/
def bytes (log : TornLog codec) : List UInt8 :=
  codec.encodeAll log.records ++ (codec.encodeWalEntry log.last).take log.cut

/-- The log reopened. -/
def reopened (log : TornLog codec) : WalFile := .open (some log.bytes)

/-- After reopening and appending, the reader returns the whole records and
then the appended ones. -/
def StaysReadable (log : TornLog codec) (ops : List WalOp) : Prop :=
  (log.reopened.appendAll codec ops).replaySince codec 0 =
    log.records ++ appendedRecords log.reopened.lsn ops

theorem fits_records (log : TornLog codec) : ∀ record ∈ log.records, codec.Fits record.2 :=
  fun record member => log.fits record (List.mem_cons_of_mem _ member)

/-- What is read of the log after appending, up to the torn bytes and behind them. -/
theorem replaySince_appendAll (log : TornLog codec) (ops : List WalOp) :
    (log.reopened.appendAll codec ops).replaySince codec 0 =
      log.records ++ (readAll codec.readEntry
        ((codec.encodeWalEntry log.last).take log.cut ++
          codec.encodeAll (appendedRecords log.reopened.lsn ops))).filter (0 < ·.1) := by
  have written := bytes_appendAll codec log.bytes log.reopened.lsn ops
  have kept : log.records.filter (0 < ·.1) = log.records := by
    refine List.filter_eq_self.mpr fun record member => ?_
    have numbered := log.numbered record (List.mem_cons_of_mem _ member)
    rw [UInt64.le_iff_toNat_le] at numbered
    simp only [decide_eq_true_eq, UInt64.lt_iff_toNat_lt]
    exact numbered
  unfold reopened WalFile.open at *
  simp only [Option.getD_some] at *
  rw [WalFile.replaySince, written]
  simp only [readLoop_eq_filter]
  rw [bytes, List.append_assoc, readAll_encodeAll_append log.fits_records, List.filter_append,
    kept]

/-- A head left by the torn record is counted when the log is opened. -/
theorem last_le_reopened (log : TornLog codec) (head : 12 ≤ log.cut) :
    log.last.1 ≤ log.reopened.lsn := by
  have torn : readAll skipEntry ((codec.encodeWalEntry log.last).take log.cut) = [log.last.1] := by
    rw [readAll_of_some skipEntry_progress
      (skipEntry_torn (log.fits _ List.mem_cons_self) head log.proper)]
    rfl
  have counted : log.reopened.lsn =
      (log.records.map Prod.fst ++ [log.last.1]).foldl max 0 := by
    rw [← torn, ← readMaxLsn_encodeAll_append log.fits_records]
    rfl
  rw [counted]
  exact le_foldl_max (List.mem_append_right _ (List.mem_singleton_self _)) 0

/-- An entry read at a torn head carries the torn record's number. -/
theorem readEntry_at_head (log : TornLog codec) (head : 12 ≤ log.cut) {tail rest : List UInt8}
    {entry : WalRecord}
    (read : codec.readEntry ((codec.encodeWalEntry log.last).take log.cut ++ tail) =
      some (entry, rest)) : entry.1 = log.last.1 := by
  obtain ⟨body, cut⟩ : ∃ body, log.cut = 12 + body := ⟨log.cut - 12, by omega⟩
  rw [cut, take_encodeWalEntry, List.append_assoc, List.append_assoc] at read
  simp only [Bincode.readEntry, readHead_append (Nat.le_add_right 4 _)
    (log.fits _ List.mem_cons_self).bodyLen_lt, Option.bind_eq_bind, Option.bind_some,
    Option.bind_eq_some_iff, Prod.exists] at read
  obtain ⟨storedCrc, afterCrc, -, payload, afterPayload, -, read⟩ := read
  split at read
  · cases read
  · obtain ⟨op, -, same⟩ := Option.bind_eq_some_iff.mp read
    cases same
    rfl

/-- **The log stays readable when nothing was torn or nothing is appended.**
Behind a torn record that has its head, the appended records are not read back. -/
theorem readable_if_whole_lost_if_torn (log : TornLog codec) (ops : List WalOp)
    (fits : ∀ op ∈ ops, codec.Fits op) (room : log.reopened.lsn.toNat + ops.length < 2 ^ 64) :
    (log.cut = 0 ∨ ops = [] → log.StaysReadable ops) ∧
      (12 ≤ log.cut → ops ≠ [] → ¬ log.StaysReadable ops) := by
  constructor
  · intro whole
    have appended : (readAll codec.readEntry ((codec.encodeWalEntry log.last).take log.cut ++
        codec.encodeAll (appendedRecords log.reopened.lsn ops))) =
        appendedRecords log.reopened.lsn ops := by
      rcases whole with uncut | rfl
      · have allFit : ∀ record ∈ appendedRecords log.reopened.lsn ops, codec.Fits record.2 :=
          fun record member => fits_of_mem_appendedRecords fits member
        have read := readAll_encodeAll_append allFit []
        rw [List.append_nil, readAll_of_none (readEntry_nil codec), List.append_nil] at read
        rw [uncut, List.take_zero, List.nil_append, read]
      · have torn := readEntry_torn (log.fits _ List.mem_cons_self) log.proper
        rw [appendedRecords, Bincode.encodeAll, List.flatMap_nil, List.append_nil,
          readAll_of_none torn]
    have kept : (appendedRecords log.reopened.lsn ops).filter (0 < ·.1) =
        appendedRecords log.reopened.lsn ops := by
      refine List.filter_eq_self.mpr fun record member => ?_
      have later := lt_of_mem_appendedRecords room member
      rw [UInt64.lt_iff_toNat_lt] at later
      simp only [decide_eq_true_eq, UInt64.lt_iff_toNat_lt]
      exact Nat.lt_of_le_of_lt (Nat.zero_le _) later
    rw [StaysReadable, replaySince_appendAll, appended, kept]
  · intro head some readable
    obtain ⟨op, rest, rfl⟩ := List.exists_cons_of_ne_nil some
    rw [StaysReadable, replaySince_appendAll] at readable
    have behind := List.append_cancel_left readable
    have counted := log.last_le_reopened head
    have numbered := log.numbered _ List.mem_cons_self
    rw [UInt64.le_iff_toNat_le] at counted numbered
    have next : (log.reopened.lsn + 1).toNat = log.reopened.lsn.toNat + 1 :=
      toNat_add_one (by rw [List.length_cons] at room; omega)
    cases read : codec.readEntry ((codec.encodeWalEntry log.last).take log.cut ++
        codec.encodeAll (appendedRecords log.reopened.lsn (op :: rest))) with
    | none =>
        rw [readAll_of_none read, appendedRecords] at behind
        cases behind
    | some taken =>
        have sameNumber := log.readEntry_at_head head read
        have positive : (0 : UInt64) < taken.1.1 := by
          rw [UInt64.lt_iff_toNat_lt, sameNumber]
          exact numbered
        rw [readAll_of_some (readEntry_progress codec) read, List.filter_cons,
          if_pos (by simpa using positive), appendedRecords] at behind
        have first : taken.1.1 = log.reopened.lsn + 1 := congrArg Prod.fst (List.cons.inj behind).1
        have := congrArg UInt64.toNat (sameNumber.symm.trans first)
        omega

end TornLog

/-- A whole begin record, a torn commit record of twelve bytes, and an abort to append. -/
def tornCommit : TornLog Bincode.control where
  records := [(1, .begin 1)]
  last := (2, .commit 1)
  cut := 12
  proper := by decide
  numbered := by decide
  fits := by
    intro record member
    simp only [List.mem_cons, List.not_mem_nil, or_false] at member
    rcases member with rfl | rfl <;> exact ⟨by decide, by decide⟩

/-- A whole log: the torn record left nothing. -/
def wholeBegin : TornLog Bincode.control :=
  { tornCommit with cut := 0, proper := by decide }

/-- A log without torn bytes is continued. -/
theorem readable_if_whole_begin : wholeBegin.StaysReadable [.abort 1] :=
  (wholeBegin.readable_if_whole_lost_if_torn [.abort 1]
    (by
      intro op member
      rw [List.mem_singleton] at member
      subst member
      exact ⟨by decide, by decide⟩)
    (by decide)).1 (.inl rfl)

/-- After the torn commit record, an appended abort is not read back. -/
theorem appended_abort_is_lost :
    (tornCommit.reopened.appendAll Bincode.control [.abort 1]).replaySince Bincode.control 0 =
        [(1, .begin 1)] ∧
      ¬ tornCommit.StaysReadable [.abort 1] := by
  have read : (tornCommit.reopened.appendAll Bincode.control [.abort 1]).replaySince
      Bincode.control 0 = [(1, .begin 1)] := by decide +kernel
  refine ⟨read, fun readable => ?_⟩
  rw [TornLog.StaysReadable, read] at readable
  exact absurd readable (by decide)

section Records

/-- A record of the engine's log as it is written. -/
def WalEntry.toRecord (entry : WalEntry) : WalRecord := (UInt64.ofNat entry.1, entry.2)

/-- The byte file holds the records of the engine's log, and they fit. -/
structure WalFile.Represents (codec : Bincode) (file : WalFile) (wal : WriteAheadLog) : Prop where
  bytes : file.bytes = some (codec.encodeAll (wal.file.map WalEntry.toRecord))
  lsn : file.lsn.toNat = wal.lsn
  fits : ∀ entry ∈ wal.file, codec.Fits entry.2
  room : ∀ entry ∈ wal.file, entry.1 < 2 ^ 64

namespace WalFile.Represents

variable {file : WalFile} {wal : WriteAheadLog}

private theorem fits_toRecord (represents : Represents codec file wal) :
    ∀ record ∈ wal.file.map WalEntry.toRecord, codec.Fits record.2 := by
  intro record member
  obtain ⟨entry, inside, rfl⟩ := List.mem_map.mp member
  exact represents.fits entry inside

/-- Appending keeps the byte file in step with the engine's log. -/
theorem append (represents : Represents codec file wal) {op : WalOp} (fits : codec.Fits op)
    (room : wal.lsn + 1 < 2 ^ 64) :
    Represents codec (file.append codec op) (wal.append op) := by
  have next : (file.lsn + 1).toNat = wal.lsn + 1 := by
    rw [toNat_add_one (by rw [represents.lsn]; exact room), represents.lsn]
  have number : UInt64.ofNat (wal.lsn + 1) = file.lsn + 1 := by
    rw [← next, UInt64.ofNat_toNat]
  refine ⟨?_, next, ?_, ?_⟩
  · simp [WalFile.append, WriteAheadLog.append, represents.bytes, Bincode.encodeAll,
      WalEntry.toRecord, number]
  · intro entry member
    rcases List.mem_append.mp member with member | member
    · exact represents.fits entry member
    · rw [List.mem_singleton.mp member]
      exact fits
  · intro entry member
    rcases List.mem_append.mp member with member | member
    · exact represents.room entry member
    · rw [List.mem_singleton.mp member]
      exact room

/-- Reading the byte file gives the records of the engine's log. -/
theorem replaySince (represents : Represents codec file wal) (fromLsn : UInt64) :
    file.replaySince codec fromLsn =
      (wal.replaySince fromLsn.toNat).map WalEntry.toRecord := by
  have read := readAll_encodeAll_append represents.fits_toRecord []
  rw [List.append_nil, readAll_of_none (readEntry_nil codec), List.append_nil] at read
  rw [WalFile.replaySince, represents.bytes]
  simp only [readLoop_eq_filter, read, WriteAheadLog.replaySince]
  rw [List.filter_map]
  congr 1
  refine List.filter_congr fun entry member => ?_
  have room := represents.room entry member
  simp only [Function.comp_apply, WalEntry.toRecord, UInt64.lt_iff_toNat_lt, UInt64.toNat_ofNat']
  rw [Nat.mod_eq_of_lt room]

/-- Opening the byte file and opening the engine's log find the same number. -/
theorem reopen (represents : Represents codec file wal) (checkpointFile : Option (FileImage Nat)) :
    Represents codec (.open file.bytes) (.open wal.file checkpointFile) := by
  refine ⟨by simp [WalFile.open, WriteAheadLog.open, represents.bytes], ?_, represents.fits,
    represents.room⟩
  have counted := readMaxLsn_encodeAll_append represents.fits_toRecord []
  rw [List.append_nil, readAll_of_none (show skipEntry [] = none from rfl),
    List.append_nil] at counted
  simp only [WalFile.open, WriteAheadLog.open, represents.bytes, Option.getD_some, counted,
    WriteAheadLog.readMaxLsn]
  suffices general : ∀ (entries : List WalEntry) (acc : UInt64),
      (∀ entry ∈ entries, entry.1 < 2 ^ 64) →
      ((entries.map WalEntry.toRecord).map Prod.fst |>.foldl max acc).toNat =
        entries.foldl (fun acc entry => max acc entry.1) acc.toNat by
    simpa using general wal.file 0 represents.room
  intro entries
  induction entries with
  | nil => intro acc _; rfl
  | cons entry entries ih =>
      intro acc room
      have first := room entry List.mem_cons_self
      simp only [List.map_cons, List.foldl_cons]
      rw [ih _ fun other member => room other (List.mem_cons_of_mem _ member), toNat_max]
      simp only [WalEntry.toRecord, UInt64.toNat_ofNat', Nat.mod_eq_of_lt first]

end WalFile.Represents

end Records

end MoodengSQL
