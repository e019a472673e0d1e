import MoodengSQL.Concurrency.Clients
import MoodengSQL.Execution.Runs

/-!
# Rollbacks among other sessions

Sessions whose statements interleave. A rollback puts saved images back without
looking at what is stored, so it can undo what another transaction has written
and committed in between. It does so exactly when the oldest image it holds of a
row is not what is stored.
-/

namespace MoodengSQL

open Foundation Foundation.Effect Interleaving

section Images

namespace UndoRecord

/-- The row a record is about. -/
def key : UndoRecord → RowKey
  | .insert table rowId => (table, rowId)
  | .update table rowId _ => (table, rowId)
  | .delete table rowId _ => (table, rowId)

/-- What undoing makes of the values of the record's row. A row that is gone
stays gone when an update of it is undone. -/
def putBack : UndoRecord → Option (List Value) → Option (List Value)
  | .insert _ _, _ => none
  | .update _ _ old, stored => stored.map fun _ => old.values
  | .delete _ _ old, _ => some old.values

end UndoRecord

/-- The undo records of a row, oldest first. -/
def undoOf (key : RowKey) (undo : List UndoRecord) : List UndoRecord :=
  undo.filter fun record => record.key = key

/-- The oldest record of an insert or a delete says whether the row is stored. -/
def PresenceStands : List UndoRecord → Bool → Prop
  | [], _ => True
  | .insert _ _ :: _, stored => stored = false
  | .delete _ _ _ :: _, stored => stored = true
  | .update _ _ _ :: rest, stored => PresenceStands rest stored

/-- The oldest undo record of a row describes what is stored: nothing under an
insert, the saved values under a delete, the saved values or nothing under an
update. -/
def ImageStands : List UndoRecord → Option (List Value) → Prop
  | [], _ => True
  | .insert _ _ :: _, stored => stored = none
  | .delete _ _ old :: _, stored => stored = some old.values
  | .update _ _ old :: rest, stored =>
      (stored = none ∨ stored = some old.values) ∧ PresenceStands rest stored.isSome

theorem isSome_putBack_iff (records : List UndoRecord) (stored : Option (List Value)) :
    (records.foldr UndoRecord.putBack stored).isSome = stored.isSome ↔
      PresenceStands records stored.isSome := by
  induction records with
  | nil => simp [PresenceStands]
  | cons record rest ih =>
      cases record with
      | insert table rowId => cases stored <;> simp [UndoRecord.putBack, PresenceStands]
      | delete table rowId old => cases stored <;> simp [UndoRecord.putBack, PresenceStands]
      | update table rowId old => simpa [UndoRecord.putBack, PresenceStands] using ih

/-- Undoing the records of a row gives the row back exactly when the oldest of
them describes it. -/
theorem putBack_eq_iff (records : List UndoRecord) (stored : Option (List Value)) :
    records.foldr UndoRecord.putBack stored = stored ↔ ImageStands records stored := by
  cases records with
  | nil => simp [ImageStands]
  | cons record rest =>
      cases record with
      | insert table rowId => simp [UndoRecord.putBack, ImageStands, eq_comm]
      | delete table rowId old => simp [UndoRecord.putBack, ImageStands, eq_comm]
      | update table rowId old =>
          have present := isSome_putBack_iff rest stored
          rw [List.foldr_cons, ImageStands, ← present]
          cases stored with
          | none => simp [UndoRecord.putBack]
          | some values =>
              cases rest.foldr UndoRecord.putBack (some values) <;>
                simp [UndoRecord.putBack, eq_comm]

end Images

section Undo

variable [Runtime] {s s' : Executor}

/-- Undoing one record changes its row and no other. -/
theorem applyUndo_contents {record : UndoRecord} {u : Unit}
    (ran : applyUndo record s = .ok u s') :
    s'.storage.contents = Function.update s.storage.contents record.key
      (record.putBack (s.storage.contents record.key)) := by
  cases record with
  | insert table rowId =>
      obtain ⟨_, _, read, ran⟩ := bind_eq_ok.mp ran
      obtain ⟨rfl, rfl⟩ := get_eq_ok.mp read
      cases stored : s.storage.view (table, rowId) with
      | none =>
          simp only [StorageEngine.get_eq_view, stored] at ran
          obtain ⟨-, rfl⟩ := pure_eq_ok.mp ran
          have absent : s.storage.contents (table, rowId) = none := by
            simp [StorageEngine.contents, stored]
          exact (Function.update_eq_self_iff.mpr absent.symm).symm
      | some row =>
          simp only [StorageEngine.get_eq_view, stored, bind_eq_ok, ExecM.lift_eq_ok,
            ExecM.removeIndexRow, modify_eq_ok, ExecM.liftStorage_eq_ok, pure_eq_ok] at ran
          obtain ⟨schema, _, ⟨-, rfl⟩, _, _, rfl, changed, _, ⟨storage, deleted, rfl⟩, -, rfl⟩ := ran
          obtain ⟨_, tables, applied, -, view⟩ := StorageEngine.applyDelete_spec
            (StorageEngine.mem_tables_of_view stored) rowId 0
          cases applied.symm.trans deleted
          exact StorageEngine.contents_with_tables view
  | update table rowId old =>
      obtain ⟨storage, changed, updated, rfl⟩ :
          ∃ storage changed, s.storage.applyUpdate table rowId old false 0 =
            .ok (changed, storage) ∧ s'.storage = storage := by
        obtain ⟨_, _, read, ran⟩ := bind_eq_ok.mp ran
        obtain ⟨rfl, rfl⟩ := get_eq_ok.mp read
        cases stored : s.storage.view (table, rowId) with
        | none =>
            simp only [StorageEngine.get_eq_view, stored, bind_eq_ok, ExecM.lift_eq_ok,
              ExecM.liftStorage_eq_ok, ExecM.insertIndexRow, ExecM.liftIndexes_eq_ok] at ran
            obtain ⟨_, _, ⟨-, rfl⟩, changed, _, ⟨storage, updated, rfl⟩, _, -, rfl⟩ := ran
            exact ⟨storage, changed, updated, rfl⟩
        | some row =>
            simp only [StorageEngine.get_eq_view, stored, bind_eq_ok, ExecM.lift_eq_ok,
              ExecM.removeIndexRow, modify_eq_ok, ExecM.liftStorage_eq_ok, ExecM.insertIndexRow,
              ExecM.liftIndexes_eq_ok] at ran
            obtain ⟨_, _, ⟨-, rfl⟩, _, _, rfl, changed, _, ⟨storage, updated, rfl⟩, _, -, rfl⟩ := ran
            exact ⟨storage, changed, updated, rfl⟩
      exact StorageEngine.contents_applyUpdate updated
  | delete table rowId old =>
      simp only [applyUndo, bind_eq_ok, get_eq_ok, ExecM.lift_eq_ok, modify_eq_ok,
        ExecM.insertIndexRow, ExecM.liftIndexes_eq_ok] at ran
      obtain ⟨_, _, ⟨rfl, rfl⟩, schema, _, ⟨-, rfl⟩, _, _, rfl, indexes, -, rfl⟩ := ran
      obtain ⟨tables, applied, -, view⟩ :=
        StorageEngine.applyInsert_spec s.storage table rowId old 0
      dsimp only
      rw [applied]
      exact StorageEngine.contents_with_tables view

/-- Undoing a list of records does to every row what its own records say. -/
theorem undoAll_contents {records : List UndoRecord} {u : Unit}
    (ran : undoAll records s = .ok u s') (key : RowKey) :
    s'.storage.contents key =
      (undoOf key records.reverse).foldr UndoRecord.putBack (s.storage.contents key) := by
  induction records generalizing s with
  | nil =>
      obtain ⟨-, rfl⟩ := pure_eq_ok.mp ran
      rfl
  | cons record rest ih =>
      obtain ⟨_, mid, undone, ran⟩ := bind_eq_ok.mp ran
      rw [ih ran, applyUndo_contents undone]
      unfold undoOf
      rw [List.reverse_cons, List.filter_append, List.foldr_append]
      by_cases same : record.key = key
      · subst same
        simp
      · simp [same, Function.update_of_ne (Ne.symm same)]

/-- A rollback does to every row what the session's undo records of it say. -/
theorem rollback_contents {result : QueryResult} (ran : rollback s = .ok result s')
    (key : RowKey) :
    s'.storage.contents key = (undoOf key s.session.transaction.undo).foldr UndoRecord.putBack
      (s.storage.contents key) := by
  obtain ⟨txnId, undone, -, -, undo, -, rfl⟩ := rollback_eq_ok.mp ran
  have restored := undoAll_contents undo key
  rwa [List.reverse_reverse] at restored

end Undo

section Sessions

/-- A statement that has been run, with the states before and after it. -/
structure Executed where
  statement : Statement
  before : Executor
  after : Executor
  result : Except Failure QueryResult

namespace Executed

/-- The transaction a statement ran in: the session's, or the one opened for it. -/
def transaction (executed : Executed) : Option Nat :=
  match executed.before.session.transaction.txnId with
  | some txnId => some txnId
  | none =>
      if executed.before.storage.wal.nextTxnId < executed.after.storage.wal.nextTxnId then
        some executed.before.storage.wal.nextTxnId
      else none

/-- Whether a statement wrote a row. -/
def writes (executed : Executed) (key : RowKey) : Bool :=
  executed.before.storage.view key ≠ executed.after.storage.view key

/-- Whether a statement committed a transaction: it was accepted, and the
transaction it ran in is over without a rollback. -/
def commits (executed : Executed) (txnId : Nat) : Bool :=
  executed.result.isOk && executed.transaction = some txnId &&
    !executed.after.session.transaction.active && executed.statement ≠ .rollback

end Executed

section Histories

variable {ι : Type}

/-- The transaction that wrote a row last. -/
def lastWriter (key : RowKey) (history : List (ι × Executed)) : Option Nat :=
  (history.reverse.find? fun entry => entry.2.writes key).bind fun entry => entry.2.transaction

/-- The transaction has committed. -/
def hasCommitted (txnId : Nat) (history : List (ι × Executed)) : Bool :=
  history.any fun entry => entry.2.commits txnId

/-- The last write to a row was made by a transaction other than the statement's,
and that transaction has committed. -/
def OthersWrite (history : List (ι × Executed)) (executed : Executed) (key : RowKey) : Prop :=
  ∃ txnId, lastWriter key history = some txnId ∧ executed.transaction ≠ some txnId ∧
    hasCommitted txnId history = true

/-- An accepted rollback leaves what other transactions have committed. -/
def KeepsOthers (history : List (ι × Executed)) (_ : ι) (executed : Executed) : Prop :=
  executed.statement = .rollback → executed.result.isOk = true → ∀ key,
    OthersWrite history executed key →
      executed.after.storage.contents key = executed.before.storage.contents key

/-- Where other transactions have committed the last write, the oldest undo
record the session holds of the row describes what is stored. -/
def HoldsNoStaleImage (history : List (ι × Executed)) (_ : ι) (executed : Executed) : Prop :=
  executed.statement = .rollback → executed.result.isOk = true → ∀ key,
    OthersWrite history executed key →
      ImageStands (undoOf key executed.before.session.transaction.undo)
        (executed.before.storage.contents key)

end Histories

variable [Runtime]

/-- A turn of a client that runs whole statements. -/
def statementStep (db : Database) (client : Client Empty Statement) :
    Turn Database (Client Empty Statement) Executed :=
  match client.program with
  | [] => .wait db client
  | statement :: rest => match executeSession [statement] (client.executor db) with
    | .ok result s => {
        shared := s.toDatabase
        thread := { client with session := s.session, program := rest }
        events := [{ statement, before := client.executor db, after := s, result := .ok result }] }
    | .error e s => {
        shared := s.toDatabase
        thread := { client with session := s.session, program := rest }
        events := [{ statement, before := client.executor db, after := s, result := .error e }] }

/-- Sessions with the statements they will run. -/
def statementClients {ι : Type} (db : Database) (programs : ι → List Statement) :
    Configuration ι Database (Client Empty Statement) Executed where
  shared := db
  threads i := { session := .new, phase := none, program := programs i }
  history := []

/-- The record of a statement tells how it ran. -/
def Executed.Ran (executed : Executed) : Prop :=
  match executed.result with
  | .ok result => executeSession [executed.statement] executed.before = .ok result executed.after
  | .error e => executeSession [executed.statement] executed.before = .error e executed.after

theorem statementStep_ran {db : Database} {client : Client Empty Statement} {executed : Executed}
    (member : executed ∈ (statementStep db client).events) : executed.Ran := by
  unfold statementStep at member
  split at member
  · cases member
  · split at member
    · rename_i ran
      cases List.mem_singleton.mp member
      exact ran
    · rename_i ran
      cases List.mem_singleton.mp member
      exact ran

variable {ι : Type} [DecidableEq ι]

/-- Every statement of a history was run. -/
theorem statements_ran (db : Database) (programs : ι → List Statement) (schedule : List ι) :
    ∀ entry ∈ (run statementStep (statementClients db programs) schedule).history,
      entry.2.Ran := by
  apply run_invariant statementStep fun config => ∀ entry ∈ config.history, entry.2.Ran
  · intro config thread earlier entry member
    rcases List.mem_append.mp member with old | new
    · exact earlier entry old
    · obtain ⟨executed, added, rfl⟩ := List.mem_map.mp new
      exact statementStep_ran added
  · intro entry member
    cases member

/-- A rollback leaves a row exactly when the oldest undo record of it stands. -/
theorem Executed.Ran.rollback_iff {executed : Executed} (ran : executed.Ran)
    (rollback : executed.statement = .rollback) (accepted : executed.result.isOk = true)
    (key : RowKey) :
    executed.after.storage.contents key = executed.before.storage.contents key ↔
      ImageStands (undoOf key executed.before.session.transaction.undo)
        (executed.before.storage.contents key) := by
  obtain ⟨statement, before, after, result⟩ := executed
  cases result with
  | error e => cases accepted
  | ok result =>
      cases rollback
      obtain ⟨mid, executed, same⟩ := executeSession_single.mp ran
      have restored := rollback_contents executed key
      have contents : after.storage.contents = mid.storage.contents := by
        dsimp only at same
        rw [same]
        split <;> rfl
      rw [← putBack_eq_iff, ← restored, ← contents]

/-- **When rollbacks leave the committed writes of others.** In every run of any
number of sessions, however their statements interleave, the accepted rollbacks
keep the rows that other, committed, transactions wrote last if and only if each
of them holds no stale image of such a row: the oldest undo record the session
has of it describes what is stored. -/
theorem rollbacks_keep_others_iff (db : Database) (programs : ι → List Statement)
    (schedule : List ι) :
    let history := (run statementStep (statementClients db programs) schedule).history
    Justified KeepsOthers history ↔ Justified HoldsNoStaleImage history := by
  have ran := statements_ran db programs schedule
  dsimp only
  generalize (run statementStep (statementClients db programs) schedule).history = history at ran
  refine forall₄_congr fun before i executed after => forall_congr' fun split => ?_
  refine forall_congr' fun rollback => forall_congr' fun accepted => forall_congr' fun key => ?_
  refine forall_congr' fun others => ?_
  have member : (i, executed) ∈ history := split ▸ List.mem_append_right _ List.mem_cons_self
  exact (ran _ member).rollback_iff rollback accepted key

end Sessions

/-- A transaction updates a row, another session updates it and commits, and the
transaction rolls back. -/
def staleRollback [Runtime] : List (Bool × Executed) :=
  (run statementStep (statementClients Executor.fresh.toDatabase fun
    | true => [createT, insertT [1], .startTransaction, updateT 2, .rollback]
    | false => [updateT 3]) [true, true, true, true, false, true]).history

/-- Every statement returns `Ok`, and the rollback takes the committed value 3
of the other session back to 1. -/
theorem rollback_undoes_committed_update :
    (∀ entry ∈ @staleRollback Runtime.reference, entry.2.result.isOk = true) ∧
      ¬Justified KeepsOthers (@staleRollback Runtime.reference) := by
  refine ⟨List.all_eq_true.mp (by decide +kernel), fun kept => ?_⟩
  obtain ⟨⟨i, executed⟩, final⟩ : ∃ entry, (@staleRollback Runtime.reference).getLast? =
      some entry := Option.isSome_iff_exists.mp (by decide +kernel)
  have split := (List.dropLast_append_getLast? _ (Option.mem_def.mpr final)).symm
  have kind : (@staleRollback Runtime.reference).getLast?.map
      (fun entry => (entry.2.statement, entry.2.result.isOk, entry.2.transaction)) =
      some (.rollback, true, some 2) := by decide +kernel
  have values : (@staleRollback Runtime.reference).getLast?.map
      (fun entry => (entry.2.before.storage.contents ("t", 1),
        entry.2.after.storage.contents ("t", 1))) =
      some (some [.int4 3], some [.int4 1]) := by decide +kernel
  have writer : lastWriter ("t", 1) (@staleRollback Runtime.reference).dropLast = some 3 := by
    decide +kernel
  have committed : hasCommitted 3 (@staleRollback Runtime.reference).dropLast = true := by
    decide +kernel
  rw [final] at kind values
  simp only [Option.map_some, Option.some.injEq, Prod.mk.injEq] at kind values
  obtain ⟨rollback, accepted, own⟩ := kind
  have same := kept _ i executed [] split rollback accepted ("t", 1)
    ⟨3, writer, by rw [own]; decide, committed⟩
  rw [values.1, values.2] at same
  cases same

end MoodengSQL
