import MoodengSQL.Core.Storage

/-!
# Replay of the log

`replay_wal` groups the records of the log by transaction, keeps the data
records of the transactions it found committed, and applies them in the order
of their sequence numbers.
-/

namespace MoodengSQL

open Std

/-- `TxnState`. -/
structure TxnState where
  committed : Bool := false
  aborted : Bool := false
  dataOps : List WalEntry := []

/-- The flags after a control record of the transaction. -/
def TxnState.control (state : TxnState) : WalOp → TxnState
  | .commit _ => { state with committed := true, aborted := false }
  | .abort _ => { state with aborted := true, committed := false }
  | _ => state

/-- One record of pass 1. -/
def groupEntry (txns : Map Nat TxnState) (entry : WalEntry) : Map Nat TxnState :=
  match entry.2.controlTxnId with
  | some txnId => txns.insert txnId ((txns.getD txnId {}).control entry.2)
  | none =>
      if entry.2.isDataOp then
        match entry.2.dataTxnId with
        | some txnId =>
            let state := txns.getD txnId {}
            txns.insert txnId { state with dataOps := state.dataOps ++ [entry] }
        | none => txns
      else txns

/-- The records pass 2 applies, in the order it collects them. -/
def collectCommitted (states : List TxnState) : List WalEntry :=
  states.flatMap fun state =>
    if state.committed && !state.aborted then state.dataOps else []

/-- `sort_by_key(|(lsn, _)| *lsn)`, a stable sort. -/
def sortByLsn (entries : List WalEntry) : List WalEntry :=
  entries.insertionSort fun a b => a.1 ≤ b.1

/-- `apply_wal_op`. -/
def applyWalOp [Runtime] (storage : StorageEngine) (op : WalOp) (log : Bool) :
    Except Failure StorageEngine :=
  match op with
  | .begin _ => .ok storage
  | .commit _ => .ok storage
  | .abort _ => .ok storage
  | .insert _ table rowId row => .ok (storage.applyInsert table rowId row log 0)
  | .update _ table rowId row => (storage.applyUpdate table rowId row log 0).map Prod.snd
  | .delete _ table rowId => (storage.applyDelete table rowId log 0).map Prod.snd

/-- Apply records in order, stopping at the first failure with what was applied
before it. -/
def applyEntries [Runtime] : StorageEngine → List WalEntry → Except Failure Unit × StorageEngine
  | storage, [] => (.ok (), storage)
  | storage, entry :: rest =>
      match applyWalOp storage entry.2 false with
      | .ok storage' => applyEntries storage' rest
      | .error e => (.error e, storage)

/-- `replay_wal` on the records read from the log: the number of records
applied, or the first failure. -/
def replayEntries [Runtime] (storage : StorageEngine) (entries : List WalEntry) :
    Except Failure Nat × StorageEngine :=
  let txns := entries.foldl groupEntry ∅
  let states := Runtime.hashOrder.order "replay_wal" (txns.toList.map Prod.snd)
  let toApply := sortByLsn (collectCommitted states)
  match applyEntries storage toApply with
  | (.ok (), storage') => (.ok toApply.length, storage')
  | (.error e, storage') => (.error e, storage')

/-- `replay_wal`. -/
def replayWal [Runtime] (storage : StorageEngine) : Except Failure Nat × StorageEngine :=
  replayEntries storage (storage.wal.replaySince storage.wal.checkpointLsn)

end MoodengSQL
