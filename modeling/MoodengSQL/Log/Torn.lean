import MoodengSQL.Log.Bytes

/-!
# Torn logs

Reading a log that ends in the middle of a record gives the records before it.
A log that is reopened after a torn write and written to again is another
matter: records are appended behind the torn bytes, where reading stops.
-/

namespace MoodengSQL

open Foundation

/-- The operation is read back from its serialization, and its body length fits
the length field. -/
structure Bincode.Fits (codec : Bincode) (op : WalOp) : Prop where
  roundTrip : codec.deserialize (codec.serialize op) = some op
  short : (codec.serialize op).length < 2 ^ 32 - 4

theorem Bincode.Fits.bodyLen_lt {codec : Bincode} {op : WalOp} (fits : codec.Fits op) :
    4 + (codec.serialize op).length < 2 ^ 32 := by
  have := fits.short
  omega

section Head

theorem readHead_append {lsn : UInt64} {bodyLen : Nat} (long : 4 ≤ bodyLen)
    (short : bodyLen < 2 ^ 32) (rest : List UInt8) :
    readHead (toBeBytes 8 lsn.toNat ++ (toBeBytes 4 bodyLen ++ rest)) =
      some ((lsn, bodyLen), rest) := by
  have lsnBack : UInt64.ofNat (fromBeBytes (toBeBytes 8 lsn.toNat)) = lsn := by
    rw [fromBeBytes_toBeBytes, Nat.mod_eq_of_lt (by simpa using lsn.toNat_lt), UInt64.ofNat_toNat]
  have lenBack : fromBeBytes (toBeBytes 4 bodyLen) = bodyLen := by
    rw [fromBeBytes_toBeBytes, Nat.mod_eq_of_lt (by simpa using short)]
  have enough : ¬ bodyLen < 4 := by omega
  simp [readHead, takeExact_append, lsnBack, lenBack, enough]

theorem readHead_of_short {bytes : List UInt8} (short : bytes.length < 12) :
    readHead bytes = none := by
  unfold readHead
  by_cases noLsn : bytes.length < 8
  · simp [takeExact_of_lt noLsn]
  · have noLen : (bytes.drop 8).length < 4 := by
      rw [List.length_drop]
      omega
    have lsnTaken : takeExact 8 bytes = some (bytes.take 8, bytes.drop 8) := by
      simp [takeExact, Nat.le_of_not_lt noLsn]
    simp [lsnTaken, takeExact_of_lt noLen]

/-- A head takes up twelve bytes. -/
theorem length_of_readHead {bytes rest : List UInt8} {head : UInt64 × Nat}
    (read : readHead bytes = some (head, rest)) : bytes.length = rest.length + 12 := by
  simp only [readHead, Option.bind_eq_bind, Option.bind_eq_some_iff, Prod.exists] at read
  obtain ⟨lsn, afterLsn, lsnTaken, bodyLen, afterLen, lenTaken, read⟩ := read
  obtain ⟨rfl, lsnSize⟩ := takeExact_eq_some.mp lsnTaken
  obtain ⟨rfl, lenSize⟩ := takeExact_eq_some.mp lenTaken
  split at read
  · cases read
  · cases read
    simp only [List.length_append]
    omega

end Head

section Entries

variable {codec : Bincode}

theorem encodeWalEntry_length (codec : Bincode) (record : WalRecord) :
    (codec.encodeWalEntry record).length = 16 + (codec.serialize record.2).length := by
  simp only [Bincode.encodeWalEntry, List.length_append, toBeBytes_length]

theorem encodeWalEntry_append (codec : Bincode) (record : WalRecord) (rest : List UInt8) :
    codec.encodeWalEntry record ++ rest =
      toBeBytes 8 record.1.toNat ++ (toBeBytes 4 (4 + (codec.serialize record.2).length) ++
        (toBeBytes 4 (crc32 (codec.serialize record.2)).toNat ++
          (codec.serialize record.2 ++ rest))) := by
  simp [Bincode.encodeWalEntry]

/-- A record cut behind its head. -/
theorem take_encodeWalEntry (codec : Bincode) (record : WalRecord) (body : Nat) :
    (codec.encodeWalEntry record).take (12 + body) =
      toBeBytes 8 record.1.toNat ++ (toBeBytes 4 (4 + (codec.serialize record.2).length) ++
        (toBeBytes 4 (crc32 (codec.serialize record.2)).toNat ++
          codec.serialize record.2).take body) := by
  rw [← List.append_nil (codec.encodeWalEntry record), encodeWalEntry_append, List.append_nil,
    show 12 + body = 8 + (4 + body) by omega, List.take_append,
    List.take_of_length_le (by simp), toBeBytes_length, Nat.add_sub_cancel_left, List.take_append,
    List.take_of_length_le (by simp), toBeBytes_length, Nat.add_sub_cancel_left]

/-- A record behind its head: it is read if its checksum is that of its payload
and the payload decodes. -/
theorem readEntry_stored (codec : Bincode) (lsn : UInt64) {checksum payload : List UInt8}
    (size : checksum.length = 4) (short : 4 + payload.length < 2 ^ 32) (rest : List UInt8) :
    codec.readEntry (toBeBytes 8 lsn.toNat ++ (toBeBytes 4 (4 + payload.length) ++
        (checksum ++ (payload ++ rest)))) =
      if (crc32 payload).toNat ≠ fromBeBytes checksum then none
      else (codec.deserialize payload).bind fun op => some ((lsn, op), rest) := by
  simp [Bincode.readEntry, readHead_append (Nat.le_add_right 4 _) short, takeExact_append, size]

/-- The checksum is read back as it was stored. -/
theorem fromBeBytes_checksum (payload : List UInt8) :
    fromBeBytes (toBeBytes 4 (crc32 payload).toNat) = (crc32 payload).toNat := by
  rw [fromBeBytes_toBeBytes]
  exact Nat.mod_eq_of_lt (by simpa using (crc32 payload).toNat_lt)

/-- A whole record is read as what its payload decodes to. -/
theorem readEntry_encodeWalEntry (codec : Bincode) {record : WalRecord}
    (short : (codec.serialize record.2).length < 2 ^ 32 - 4) (rest : List UInt8) :
    codec.readEntry (codec.encodeWalEntry record ++ rest) =
      (codec.deserialize (codec.serialize record.2)).bind fun op =>
        some ((record.1, op), rest) := by
  rw [encodeWalEntry_append, readEntry_stored codec record.1 (toBeBytes_length 4 _) (by omega),
    fromBeBytes_checksum, if_neg (not_not_intro rfl)]

/-- A whole record is read back, with what follows it left over. -/
theorem readEntry_append {record : WalRecord} (fits : codec.Fits record.2) (rest : List UInt8) :
    codec.readEntry (codec.encodeWalEntry record ++ rest) = some (record, rest) := by
  rw [readEntry_encodeWalEntry codec fits.short, fits.roundTrip]
  rfl

/-- A record cut short is not read. -/
theorem readEntry_torn {record : WalRecord} (fits : codec.Fits record.2) {n : Nat}
    (cut : n < (codec.encodeWalEntry record).length) :
    codec.readEntry ((codec.encodeWalEntry record).take n) = none := by
  rw [encodeWalEntry_length] at cut
  by_cases noHead : n < 12
  · have none : readHead ((codec.encodeWalEntry record).take n) = none :=
      readHead_of_short ((List.length_take_le _ _).trans_lt noHead)
    simp [Bincode.readEntry, none]
  · obtain ⟨body, rfl⟩ : ∃ body, n = 12 + body := ⟨n - 12, by omega⟩
    rw [take_encodeWalEntry]
    simp only [Bincode.readEntry, readHead_append (Nat.le_add_right 4 _) fits.bodyLen_lt,
      Option.bind_eq_bind, Option.bind_some]
    by_cases noCrc : body < 4
    · simp [takeExact_of_lt (n := 4) ((List.length_take_le _ _).trans_lt noCrc)]
    · obtain ⟨payload, rfl⟩ : ∃ payload, body = 4 + payload := ⟨body - 4, by omega⟩
      rw [List.take_append, List.take_of_length_le (by simp), toBeBytes_length,
        Nat.add_sub_cancel_left, takeExact_append (toBeBytes_length _ _)]
      have noPayload : ((codec.serialize record.2).take payload).length <
          (codec.serialize record.2).length :=
        (List.length_take_le _ _).trans_lt (by omega)
      simp [takeExact_of_lt noPayload]

theorem readEntry_progress (codec : Bincode) : Progress codec.readEntry := by
  intro bytes record rest read
  simp only [Bincode.readEntry, Option.bind_eq_bind, Option.bind_eq_some_iff, Prod.exists] at read
  obtain ⟨lsn, bodyLen, afterHead, head, storedCrc, afterCrc, crcTaken, payload, afterPayload,
    payloadTaken, read⟩ := read
  have headSize := length_of_readHead head
  obtain ⟨rfl, -⟩ := takeExact_eq_some.mp crcTaken
  obtain ⟨rfl, -⟩ := takeExact_eq_some.mp payloadTaken
  split at read
  · cases read
  · obtain ⟨op, -, same⟩ := Option.bind_eq_some_iff.mp read
    cases same
    simp only [List.length_append] at headSize
    omega

theorem readEntry_nil (codec : Bincode) : codec.readEntry [] = none := rfl

/-- The reading loop keeps the records beyond the given sequence number. -/
theorem readLoop_eq_filter (codec : Bincode) (fromLsn : UInt64) (bytes : List UInt8) :
    codec.readLoop fromLsn bytes.length bytes =
      (readAll codec.readEntry bytes).filter (fromLsn < ·.1) := by
  suffices general : ∀ fuel bytes, codec.readLoop fromLsn fuel bytes =
      (readFrames codec.readEntry fuel bytes).filter (fromLsn < ·.1) from general _ bytes
  intro fuel
  induction fuel with
  | zero => intro bytes; rfl
  | succ fuel ih =>
      intro bytes
      simp only [Bincode.readLoop, readFrames]
      cases codec.readEntry bytes with
      | none => rfl
      | some taken =>
          simp only [List.filter_cons, ih]
          split <;> simp_all

/-- The bytes of a list of records. -/
def Bincode.encodeAll (codec : Bincode) (records : List WalRecord) : List UInt8 :=
  records.flatMap codec.encodeWalEntry

/-- Whole records are read in order, and reading goes on behind them. -/
theorem readAll_encodeAll_append {records : List WalRecord}
    (fits : ∀ record ∈ records, codec.Fits record.2) (tail : List UInt8) :
    readAll codec.readEntry (codec.encodeAll records ++ tail) =
      records ++ readAll codec.readEntry tail := by
  have read : readAll codec.readEntry (codec.encodeAll records ++ tail) =
      records.map id ++ readAll codec.readEntry tail :=
    readAll_encoded (readEntry_progress codec)
      (fun record member => readEntry_append (fits record member)) tail
  rwa [List.map_id] at read

/-- **Decoding undoes encoding, also for a torn tail.** Of the first `n` bytes
of encoded records, `replay_from_bytes` reads the records that lie whole within
them and beyond the given sequence number, and so does `replay_since`. -/
theorem replayFromBytes_take_encodeAll (codec : Bincode) (records : List WalRecord)
    (roundTrip : ∀ record ∈ records,
      codec.deserialize (codec.serialize record.2) = some record.2)
    (short : ∀ record ∈ records, (codec.serialize record.2).length < 2 ^ 32 - 4)
    (fromLsn : UInt64) (n : Nat) (lsn : UInt64) :
    codec.replayFromBytes ((codec.encodeAll records).take n) fromLsn =
        (wholeWithin (fun record => (codec.encodeWalEntry record).length) n records).filter
          (fromLsn < ·.1) ∧
      WalFile.replaySince codec ⟨some ((codec.encodeAll records).take n), lsn⟩ fromLsn =
        (wholeWithin (fun record => (codec.encodeWalEntry record).length) n records).filter
          (fromLsn < ·.1) := by
  have fits : ∀ record ∈ records, codec.Fits record.2 := fun record member =>
    ⟨roundTrip record member, short record member⟩
  have read : readAll codec.readEntry ((codec.encodeAll records).take n) =
      wholeWithin (fun record => (codec.encodeWalEntry record).length) n records :=
    readAll_take_encoded (readEntry_progress codec)
      (fun record member => readEntry_append (fits record member))
      (fun record member _ cut => readEntry_torn (fits record member) cut) n
  simp only [Bincode.replayFromBytes, WalFile.replaySince, readLoop_eq_filter, read, and_self]

end Entries

/-- The layout of control records: a little-endian tag and the transaction id.
Data records are left out of this codec. -/
def Bincode.control : Bincode where
  serialize
    | .begin txnId => (toBeBytes 4 0).reverse ++ (toBeBytes 8 txnId).reverse
    | .commit txnId => (toBeBytes 4 1).reverse ++ (toBeBytes 8 txnId).reverse
    | .abort txnId => (toBeBytes 4 2).reverse ++ (toBeBytes 8 txnId).reverse
    | _ => []
  deserialize bytes := do
    let (tag, bytes) ← takeExact 4 bytes
    let (txnId, _) ← takeExact 8 bytes
    match fromBeBytes tag.reverse with
    | 0 => some (.begin (fromBeBytes txnId.reverse))
    | 1 => some (.commit (fromBeBytes txnId.reverse))
    | 2 => some (.abort (fromBeBytes txnId.reverse))
    | _ => none

/-- Two control records cut two bytes into the second. -/
theorem replayFromBytes_take_encodeAll_two :
    Bincode.control.replayFromBytes
        ((Bincode.control.encodeAll [(1, .begin 7), (2, .commit 7)]).take 30) 0 =
      [(1, .begin 7)] := by
  refine (replayFromBytes_take_encodeAll Bincode.control [(1, .begin 7), (2, .commit 7)]
    (by decide) (by decide) 0 30 0).1.trans (by decide)

end MoodengSQL
