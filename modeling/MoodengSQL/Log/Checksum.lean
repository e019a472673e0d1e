import MoodengSQL.Foundation.Crc
import MoodengSQL.Log.Torn

/-!
# Checksums of the log

The checksum of a record is a reflected CRC of 32 bits, so a change within four
bytes of a payload always shows. Reading a log stops at a record whose checksum
does not match, with the records before it.
-/

namespace MoodengSQL

open Foundation Foundation.Crc

/-- The polynomial of `crc32`, its top coefficient in the top bit. -/
def crcPolynomial : BitVec 32 := 0xEDB88320#32

section Table

/-- One turn of the loop that fills the table of `crc32`. -/
theorem shiftOut_toBitVec (c : UInt32) :
    (if c &&& 1 ≠ 0 then (0xEDB88320 : UInt32) ^^^ (c >>> 1) else c >>> 1).toBitVec =
      shiftOut crcPolynomial c.toBitVec := by
  have low : c &&& 1 ≠ 0 ↔ c.toBitVec.getLsbD 0 = true := by
    have bit : (c &&& 1).toBitVec = (BitVec.ofBool (c.toBitVec.getLsbD 0)).setWidth 32 := by
      rw [UInt32.toBitVec_and]
      exact BitVec.and_one_eq_setWidth_ofBool_getLsbD
    rw [ne_eq, ← UInt32.toBitVec_inj, bit]
    cases c.toBitVec.getLsbD 0 <;> decide
  unfold shiftOut
  by_cases set : c.toBitVec.getLsbD 0 = true
  · rw [if_pos (low.mpr set), if_pos set]
    rfl
  · rw [if_neg (mt low.mp set), if_neg set]
    rfl

/-- An entry of the table of `crc32`. -/
theorem crcEntry_toBitVec (index : UInt32) :
    (crcEntry index).toBitVec = (shiftOut crcPolynomial)^[8] index.toBitVec := by
  have turns (count : Nat) : ((List.range count).foldl (fun (c : UInt32) _ =>
      if c &&& 1 ≠ 0 then (0xEDB88320 : UInt32) ^^^ (c >>> 1) else c >>> 1) index).toBitVec =
        (shiftOut crcPolynomial)^[count] index.toBitVec := by
    induction count with
    | zero => rfl
    | succ count ih =>
        rw [List.range_succ, List.foldl_append, Function.iterate_succ_apply', ← ih]
        exact shiftOut_toBitVec _
  exact turns 8

/-- `crc32` is the register after the bytes, inverted. -/
theorem crc32_toBitVec (bytes : List UInt8) :
    (crc32 bytes).toBitVec = ~~~ feed crcPolynomial 0xFFFFFFFF#32 bytes := by
  have step (crc : UInt32) (byte : UInt8) :
      (crcEntry ((crc ^^^ byte.toUInt32) &&& 0xFF) ^^^ (crc >>> 8)).toBitVec =
        takeIn crcPolynomial crc.toBitVec byte := by
    have above : (crc.toBitVec ^^^ lowByte byte) >>> 8 = crc.toBitVec >>> 8 := by
      apply BitVec.eq_of_getLsbD_eq
      intro i _
      rw [BitVec.getLsbD_ushiftRight, BitVec.getLsbD_ushiftRight, BitVec.getLsbD_xor,
        getLsbD_lowByte, BitVec.getLsbD_of_ge byte.toBitVec _ (by omega), Bool.and_false,
        Bool.xor_false]
    rw [takeIn, iterate_shiftOut_table, above, UInt32.toBitVec_xor, crcEntry_toBitVec]
    rfl
  have run (start : UInt32) : (bytes.foldl
      (fun crc byte => crcEntry ((crc ^^^ byte.toUInt32) &&& 0xFF) ^^^ (crc >>> 8))
      start).toBitVec = feed crcPolynomial start.toBitVec bytes := by
    induction bytes generalizing start with
    | nil => rfl
    | cons byte rest ih =>
        rw [List.foldl_cons, ih, step]
        rfl
  rw [crc32, UInt32.toBitVec_not, run]
  rfl

/-- **Four changed bytes change the checksum.** -/
theorem crc32_ne_of_burst {before burst burst' after : List UInt8} (fits : burst.length ≤ 4)
    (lengths : burst.length = burst'.length) (differ : burst ≠ burst') :
    crc32 (before ++ burst ++ after) ≠ crc32 (before ++ burst' ++ after) := by
  intro same
  have registers := congrArg UInt32.toBitVec same
  rw [crc32_toBitVec, crc32_toBitVec, BitVec.not_inj] at registers
  exact feed_ne_of_burst (by decide) _ (Nat.mul_le_mul_left 8 fits) lengths differ registers

end Table

section Replay

/-- Big-endian bytes of one length stand for different numbers. -/
theorem fromBeBytes_injective {first second : List UInt8} (lengths : first.length = second.length)
    (same : fromBeBytes first = fromBeBytes second) : first = second := by
  have digits (bytes : List UInt8) :
      fromBeBytes bytes = Nat.ofDigits 256 (bytes.reverse.map UInt8.toNat) := by
    rw [Nat.ofDigits_eq_foldr, List.foldr_map, List.foldr_reverse, fromBeBytes]
    congr 1
    funext acc byte
    rw [Nat.mul_comm, Nat.add_comm]
    rfl
  have small (bytes : List UInt8) : ∀ digit ∈ bytes.reverse.map UInt8.toNat, digit < 256 := by
    intro digit listed
    obtain ⟨byte, -, rfl⟩ := List.mem_map.mp listed
    exact byte.toNat_lt
  rw [digits, digits] at same
  have equal := Nat.ofDigits_inj_of_len_eq (by decide) (by simpa using lengths) (small first)
    (small second) same
  exact List.reverse_injective (List.map_injective_iff.mpr (fun _ _ => UInt8.toNat_inj.mp) equal)

/-- The bytes of a record whose checksum or payload may have changed. -/
def storedRecord (lsn : UInt64) (checksum payload : List UInt8) : List UInt8 :=
  toBeBytes 8 lsn.toNat ++ toBeBytes 4 (4 + payload.length) ++ checksum ++ payload

theorem encodeWalEntry_eq_storedRecord (codec : Bincode) (record : WalRecord) :
    codec.encodeWalEntry record =
      storedRecord record.1 (toBeBytes 4 (crc32 (codec.serialize record.2)).toNat)
        (codec.serialize record.2) := rfl

/-- A record whose checksum does not match is not read. -/
theorem readEntry_mismatch (codec : Bincode) (lsn : UInt64) {checksum payload : List UInt8}
    (size : checksum.length = 4) (short : 4 + payload.length < 2 ^ 32)
    (mismatch : (crc32 payload).toNat ≠ fromBeBytes checksum) (rest : List UInt8) :
    codec.readEntry (storedRecord lsn checksum payload ++ rest) = none := by
  have read := readEntry_stored codec lsn size short rest
  rw [if_pos mismatch] at read
  rw [← read, storedRecord]
  simp only [List.append_assoc]

/-- What stands behind whole records and is not read changes nothing. -/
theorem readAll_encodeAll_of_unread (codec : Bincode) {records : List WalRecord}
    (short : ∀ record ∈ records, (codec.serialize record.2).length < 2 ^ 32 - 4)
    {tail : List UInt8} (unread : codec.readEntry tail = none) :
    readAll codec.readEntry (codec.encodeAll records ++ tail) =
      readAll codec.readEntry (codec.encodeAll records) := by
  induction records with
  | nil =>
      rw [Bincode.encodeAll, List.flatMap_nil, List.nil_append, readAll_of_none unread]
      rfl
  | cons record rest ih =>
      have ih := ih fun other member => short other (List.mem_cons_of_mem _ member)
      have first := readEntry_encodeWalEntry codec (short record List.mem_cons_self)
      rw [Bincode.encodeAll, List.flatMap_cons, List.append_assoc]
      rw [← Bincode.encodeAll]
      cases decoded : codec.deserialize (codec.serialize record.2) with
      | none =>
          have unread (bytes : List UInt8) :
              codec.readEntry (codec.encodeWalEntry record ++ bytes) = none := by
            rw [first, decoded]
            rfl
          rw [readAll_of_none (unread _), readAll_of_none (unread _)]
      | some op =>
          have reads (bytes : List UInt8) :
              codec.readEntry (codec.encodeWalEntry record ++ bytes) =
                some ((record.1, op), bytes) := by
            rw [first, decoded]
            rfl
          rw [readAll_of_some (readEntry_progress codec) (reads _),
            readAll_of_some (readEntry_progress codec) (reads _), ih]

/-- A record that is not read ends the replay of a log. -/
theorem replayFromBytes_unread (codec : Bincode) {before : List WalRecord}
    (short : ∀ record ∈ before, (codec.serialize record.2).length < 2 ^ 32 - 4)
    {damaged : List UInt8} (rest : List UInt8)
    (unread : codec.readEntry (damaged ++ rest) = none) (fromLsn : UInt64) :
    codec.replayFromBytes (codec.encodeAll before ++ damaged ++ rest) fromLsn =
      codec.replayFromBytes (codec.encodeAll before) fromLsn := by
  rw [Bincode.replayFromBytes, Bincode.replayFromBytes, readLoop_eq_filter, readLoop_eq_filter,
    List.append_assoc, readAll_encodeAll_of_unread codec short unread]

/-- **The checksum catches every burst of four bytes.** When at most four bytes
side by side change in the payload of a record, or only its checksum changes, the
checksum does not match, and the log is replayed up to that record. -/
theorem burst_stops_replay (codec : Bincode) (before after : List WalRecord) (record : WalRecord)
    (short : ∀ other ∈ before ++ [record], (codec.serialize other.2).length < 2 ^ 32 - 4)
    (fromLsn : UInt64) :
    let payload := codec.serialize record.2
    let checksum := toBeBytes 4 (crc32 payload).toNat
    (∀ start burst burst' rest, payload = start ++ burst ++ rest →
      burst.length = burst'.length → burst.length ≤ 4 → burst ≠ burst' →
      crc32 (start ++ burst' ++ rest) ≠ crc32 payload ∧
        codec.replayFromBytes (codec.encodeAll before ++
            storedRecord record.1 checksum (start ++ burst' ++ rest) ++ codec.encodeAll after)
          fromLsn = codec.replayFromBytes (codec.encodeAll before) fromLsn) ∧
      ∀ checksum', checksum'.length = 4 → checksum' ≠ checksum →
        (crc32 payload).toNat ≠ fromBeBytes checksum' ∧
          codec.replayFromBytes (codec.encodeAll before ++
              storedRecord record.1 checksum' payload ++ codec.encodeAll after)
            fromLsn = codec.replayFromBytes (codec.encodeAll before) fromLsn := by
  intro payload checksum
  have payloadShort : payload.length < 2 ^ 32 - 4 :=
    short record (List.mem_append_right before (List.mem_singleton_self record))
  have earlier : ∀ other ∈ before, (codec.serialize other.2).length < 2 ^ 32 - 4 :=
    fun other member => short other (List.mem_append_left _ member)
  have stored : fromBeBytes checksum = (crc32 payload).toNat := fromBeBytes_checksum payload
  constructor
  · intro start burst burst' rest split lengths fits differ
    have changed : crc32 (start ++ burst' ++ rest) ≠ crc32 payload := by
      rw [split]
      exact (crc32_ne_of_burst fits lengths differ).symm
    have size : (start ++ burst' ++ rest).length = payload.length := by
      simp only [split, List.length_append, lengths]
    refine ⟨changed, replayFromBytes_unread codec earlier _ ?_ fromLsn⟩
    apply readEntry_mismatch codec record.1 (toBeBytes_length 4 _) (by omega)
    rw [stored]
    exact fun same => changed (UInt32.toNat_inj.mp same)
  · intro checksum' width differ
    have mismatch : (crc32 payload).toNat ≠ fromBeBytes checksum' := by
      intro same
      apply differ
      apply fromBeBytes_injective (width.trans (toBeBytes_length 4 _).symm)
      rw [← same, stored]
    refine ⟨mismatch, replayFromBytes_unread codec earlier _ ?_ fromLsn⟩
    exact readEntry_mismatch codec record.1 width (by omega) mismatch _

/-- A changed byte in the second of three control records. -/
theorem burst_stops_replay_middle :
    Bincode.control.replayFromBytes
      (Bincode.control.encodeAll [(1, .begin 7)] ++
        storedRecord 2 (toBeBytes 4 (crc32 (Bincode.control.serialize (.commit 7))).toNat)
          ([1, 0] ++ [1] ++ [0, 7, 0, 0, 0, 0, 0, 0, 0]) ++
        Bincode.control.encodeAll [(3, .begin 8)]) 0 = [(1, .begin 7)] := by
  have caught := (burst_stops_replay .control [(1, .begin 7)] [(3, .begin 8)] (2, .commit 7)
    (by decide) 0).1 [1, 0] [0] [1] [0, 7, 0, 0, 0, 0, 0, 0, 0] (by decide) rfl (by decide)
    (by decide)
  exact caught.2.trans (by decide +kernel)

end Replay

end MoodengSQL
