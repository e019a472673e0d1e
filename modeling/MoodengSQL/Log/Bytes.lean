import MoodengSQL.Core.Wal
import MoodengSQL.Foundation.Framing

/-!
# The byte format of the log

A record is its sequence number and the length of its body, both big-endian,
followed by the body: a checksum and the serialized operation. Serialization is
a parameter; the file functions are those of `wal.rs` over the bytes of the
file.
-/

namespace MoodengSQL

open Foundation

/-- The big-endian bytes of a number, `width` of them. -/
def toBeBytes : Nat → Nat → List UInt8
  | 0, _ => []
  | width + 1, n => UInt8.ofNat (n / 256 ^ width) :: toBeBytes width n

/-- The number big-endian bytes stand for. -/
def fromBeBytes (bytes : List UInt8) : Nat :=
  bytes.foldl (fun acc byte => acc * 256 + byte.toNat) 0

@[simp] theorem toBeBytes_length (width n : Nat) : (toBeBytes width n).length = width := by
  induction width with
  | zero => rfl
  | succ width ih => simp [toBeBytes, ih]

/-- Reading big-endian bytes gives the number modulo what the width holds. -/
theorem fromBeBytes_toBeBytes (width n : Nat) :
    fromBeBytes (toBeBytes width n) = n % 256 ^ width := by
  suffices general : ∀ acc, (toBeBytes width n).foldl
      (fun acc byte => acc * 256 + byte.toNat) acc = acc * 256 ^ width + n % 256 ^ width by
    simpa [fromBeBytes] using general 0
  induction width with
  | zero => simp [toBeBytes, Nat.mod_one]
  | succ width ih =>
      intro acc
      have split : n % 256 ^ (width + 1) =
          n % 256 ^ width + 256 ^ width * (n / 256 ^ width % 256) := by
        rw [pow_succ, Nat.mod_mul]
      rw [split]
      simp only [toBeBytes, List.foldl_cons, ih, UInt8.toNat_ofNat', pow_succ]
      ring_nf

/-- One entry of the table of `crc32`. -/
def crcEntry (index : UInt32) : UInt32 :=
  (List.range 8).foldl
    (fun (c : UInt32) _ => if c &&& 1 ≠ 0 then (0xEDB88320 : UInt32) ^^^ (c >>> 1) else c >>> 1)
    index

/-- `crc32`. -/
def crc32 (bytes : List UInt8) : UInt32 :=
  ~~~ bytes.foldl
    (fun crc byte => crcEntry ((crc ^^^ byte.toUInt32) &&& 0xFF) ^^^ (crc >>> 8)) 0xFFFFFFFF

/-- The serialization of operations. -/
structure Bincode where
  serialize : WalOp → List UInt8
  deserialize : List UInt8 → Option WalOp

/-- A record of the file: a sequence number and an operation. -/
abbrev WalRecord := UInt64 × WalOp

/-- `read_exact`: the next `n` bytes, if there are that many. -/
def takeExact (n : Nat) (bytes : List UInt8) : Option (List UInt8 × List UInt8) :=
  if n ≤ bytes.length then some (bytes.take n, bytes.drop n) else none

theorem takeExact_append {n : Nat} {first : List UInt8} (size : first.length = n)
    (rest : List UInt8) : takeExact n (first ++ rest) = some (first, rest) := by
  subst size
  simp [takeExact]

theorem takeExact_of_lt {n : Nat} {bytes : List UInt8} (short : bytes.length < n) :
    takeExact n bytes = none := by
  simp [takeExact, short]

theorem takeExact_eq_some {n : Nat} {bytes first rest : List UInt8} :
    takeExact n bytes = some (first, rest) ↔ bytes = first ++ rest ∧ first.length = n := by
  constructor
  · intro taken
    unfold takeExact at taken
    split at taken
    · cases taken
      exact ⟨(List.take_append_drop n bytes).symm, by simpa⟩
    · cases taken
  · rintro ⟨rfl, size⟩
    exact takeExact_append size rest

/-- The head of a record: its sequence number and the length of its body. -/
def readHead (bytes : List UInt8) : Option ((UInt64 × Nat) × List UInt8) := do
  let (lsn, bytes) ← takeExact 8 bytes
  let (bodyLen, bytes) ← takeExact 4 bytes
  if fromBeBytes bodyLen < 4 then none
  else some ((UInt64.ofNat (fromBeBytes lsn), fromBeBytes bodyLen), bytes)

namespace Bincode

variable (codec : Bincode)

/-- `encode_wal_entry`. -/
def encodeWalEntry (record : WalRecord) : List UInt8 :=
  let payload := codec.serialize record.2
  toBeBytes 8 record.1.toNat ++ toBeBytes 4 (4 + payload.length) ++
    toBeBytes 4 (crc32 payload).toNat ++ payload

/-- One turn of the reading loop of `replay_since` and `replay_from_bytes`. -/
def readEntry (bytes : List UInt8) : Option (WalRecord × List UInt8) := do
  let ((lsn, bodyLen), bytes) ← readHead bytes
  let (storedCrc, bytes) ← takeExact 4 bytes
  let (payload, bytes) ← takeExact (bodyLen - 4) bytes
  if (crc32 payload).toNat ≠ fromBeBytes storedCrc then none
  else do
    let op ← codec.deserialize payload
    some ((lsn, op), bytes)

/-- The reading loop of `replay_since` and `replay_from_bytes`. -/
def readLoop (fromLsn : UInt64) : Nat → List UInt8 → List WalRecord
  | 0, _ => []
  | fuel + 1, bytes =>
      match codec.readEntry bytes with
      | none => []
      | some (entry, rest) =>
          if fromLsn < entry.1 then entry :: readLoop fromLsn fuel rest
          else readLoop fromLsn fuel rest

/-- `replay_from_bytes`. An entry takes up at least one byte, so the loop ends
within the length of the data. -/
def replayFromBytes (data : List UInt8) (fromLsn : UInt64) : List WalRecord :=
  codec.readLoop fromLsn data.length data

end Bincode

/-- One turn of the loop of `read_max_lsn`, which skips the body; a seek beyond
the end of the file succeeds. -/
def skipEntry (bytes : List UInt8) : Option (UInt64 × List UInt8) := do
  let ((lsn, bodyLen), bytes) ← readHead bytes
  some (lsn, bytes.drop bodyLen)

/-- `read_max_lsn`. -/
def readMaxLsn (bytes : List UInt8) : UInt64 :=
  (readAll skipEntry bytes).foldl max 0

/-- The log over its file: the bytes of `wal.log`, if it exists, and the last
sequence number. -/
structure WalFile where
  bytes : Option (List UInt8)
  lsn : UInt64

namespace WalFile

/-- `WriteAheadLog::open`, which creates the file. -/
def «open» (bytes : Option (List UInt8)) : WalFile :=
  { bytes := some (bytes.getD []), lsn := readMaxLsn (bytes.getD []) }

/-- `WriteAheadLog::append`, which writes at the end of the file. -/
def append (codec : Bincode) (wal : WalFile) (op : WalOp) : WalFile :=
  { bytes := some (wal.bytes.getD [] ++ codec.encodeWalEntry (wal.lsn + 1, op))
    lsn := wal.lsn + 1 }

/-- `WriteAheadLog::replay_since`. -/
def replaySince (codec : Bincode) (wal : WalFile) (fromLsn : UInt64) : List WalRecord :=
  match wal.bytes with
  | none => []
  | some bytes => codec.readLoop fromLsn bytes.length bytes

end WalFile

end MoodengSQL
