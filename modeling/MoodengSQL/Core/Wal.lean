import MoodengSQL.Core.Index

/-!
# The write-ahead log

The log as the engine uses it: a file of records, each with its sequence
number, a checkpoint file, and the counters kept in memory. Files are held as
the records and values they decode to; `MoodengSQL.Log.Bytes` has the byte
format and shows that reading it gives these records back. Counters are natural
numbers. The batching of `fsync` calls has no effect on what a file contains
and is left out.
-/

namespace MoodengSQL

/-- Log records. -/
inductive WalOp where
  | begin (txnId : Nat)
  | commit (txnId : Nat)
  | abort (txnId : Nat)
  | insert (txnId : Nat) (table : String) (rowId : Nat) (row : Row)
  | update (txnId : Nat) (table : String) (rowId : Nat) (row : Row)
  | delete (txnId : Nat) (table : String) (rowId : Nat)
  deriving DecidableEq, Repr

namespace WalOp

/-- `WalOp::data_txn_id`. -/
def dataTxnId : WalOp → Option Nat
  | insert txnId _ _ _ => some txnId
  | update txnId _ _ _ => some txnId
  | delete txnId _ _ => some txnId
  | _ => none

/-- `WalOp::control_txn_id`. -/
def controlTxnId : WalOp → Option Nat
  | begin txnId => some txnId
  | commit txnId => some txnId
  | abort txnId => some txnId
  | _ => none

/-- `WalOp::is_data_op`. -/
def isDataOp : WalOp → Bool
  | insert .. => true
  | update .. => true
  | delete .. => true
  | _ => false

end WalOp

/-- A log record with its sequence number. -/
abbrev WalEntry := Nat × WalOp

/-- The content of a file that exists: just truncated, or holding the encoding
of a value. -/
inductive FileImage (α : Type) where
  | truncated
  | written (content : α)
  deriving DecidableEq, Repr

/-- `WriteAheadLog`: the records of `wal.log`, the sequence number in
`checkpoint.bin`, and the counters. `checkpointLsn` is what `checkpoint.bin`
held when the log was opened. -/
structure WriteAheadLog where
  file : List WalEntry
  checkpointFile : Option (FileImage Nat)
  lsn : Nat
  nextTxnId : Nat
  opsSinceCheckpoint : Nat
  checkpointLsn : Nat
  deriving DecidableEq, Repr

namespace WriteAheadLog

/-- The sequence number a checkpoint file stands for. -/
def readCheckpointLsn : Option (FileImage Nat) → Nat
  | some (.written lsn) => lsn
  | some .truncated => 0
  | none => 0

/-- `read_max_lsn`. -/
def readMaxLsn (file : List WalEntry) : Nat := file.foldl (fun acc entry => max acc entry.1) 0

/-- `WriteAheadLog::open`. Transaction ids start from one in every process. -/
def «open» (file : List WalEntry) (checkpointFile : Option (FileImage Nat)) : WriteAheadLog :=
  { file
    checkpointFile
    lsn := readMaxLsn file
    nextTxnId := 1
    opsSinceCheckpoint := 0
    checkpointLsn := readCheckpointLsn checkpointFile }

/-- `alloc_txn_id`. -/
def allocTxnId (wal : WriteAheadLog) : Nat × WriteAheadLog :=
  (wal.nextTxnId, { wal with nextTxnId := wal.nextTxnId + 1 })

/-- `append`. -/
def append (wal : WriteAheadLog) (op : WalOp) : WriteAheadLog :=
  { wal with
    file := wal.file ++ [(wal.lsn + 1, op)]
    lsn := wal.lsn + 1
    opsSinceCheckpoint := wal.opsSinceCheckpoint + 1 }

/-- `should_checkpoint`. -/
def shouldCheckpoint [Runtime] (wal : WriteAheadLog) : Bool :=
  Runtime.checkpointInterval ≤ wal.opsSinceCheckpoint

/-- `mark_checkpoint`. -/
def markCheckpoint (wal : WriteAheadLog) (lsn : Nat) : WriteAheadLog :=
  { wal with checkpointFile := some (.written lsn), opsSinceCheckpoint := 0 }

/-- `truncate`: the file is emptied and numbering starts again. -/
def truncate (wal : WriteAheadLog) : WriteAheadLog := { wal with file := [], lsn := 0 }

/-- `replay_since`. -/
def replaySince (wal : WriteAheadLog) (fromLsn : Nat) : List WalEntry :=
  wal.file.filter (fromLsn < ·.1)

end WriteAheadLog

end MoodengSQL
