import MoodengSQL.Concurrency.LogOrder

/-!
# The log under row locks

`UPDATE` and `DELETE` hold the lock of a row from its change to the end of its record.
`INSERT` takes none: another session finds the new row before its record has a number,
and its own record may come first, where replay finds no row to change. As long as
that does not happen, the log of autocommitted statements gives their rows again, over
tables that were empty.
-/

namespace MoodengSQL

open Foundation Foundation.Effect Interleaving Std

/-- The row an update or a delete changes. -/
def WalOp.lockedRow : WalOp → Option RowKey
  | update _ table rowId _ => some (table, rowId)
  | delete _ table rowId => some (table, rowId)
  | _ => none

/-- The row whose lock a session holds for its change and the record of it. -/
def lockedRow : Option LogPlace → Option RowKey
  | some (.numbering op _) => op.lockedRow
  | some (.writing entry _) => entry.2.lockedRow
  | phase => aimOf phase

/-- The row of an `INSERT` whose record has no number yet. -/
def InHand.insertedRow : InHand → Option RowKey
  | .unnumbered op => op.insertedRow
  | _ => none

section Conditions

variable {ι : Type} (config : Logging ι) (i : ι)

/-- What the row locks see to: a session that changes a row, or writes the record of
the change, is the only one. -/
def Logging.RowsLocked : Prop :=
  lockedRow (config.threads i).phase ≠ none →
    ∀ j, j ≠ i → lockedRow (config.threads j).phase ≠ lockedRow (config.threads i).phase

/-- The turn truncates no log: there is no checkpoint. -/
def Logging.KeepsLog : Prop := truncatesAt (config.threads i).phase = false

/-- The condition on a turn: an update or delete finds no row whose `INSERT` has no
number yet. -/
def Logging.InsertsNumbered : Prop :=
  aimOf (config.threads i).phase ≠ none →
    ∀ j, (config.held j).insertedRow ≠ aimOf (config.threads i).phase

instance [Fintype ι] [DecidableEq ι] : Decidable (config.RowsLocked i) :=
  inferInstanceAs (Decidable (_ → ∀ _, _ → _))

instance : Decidable (config.KeepsLog i) := inferInstanceAs (Decidable (_ = _))

instance [Fintype ι] : Decidable (config.InsertsNumbered i) :=
  inferInstanceAs (Decidable (_ → ∀ _, _))

variable {config i}

/-- A turn that changes a row holds its lock, and has no record at hand. -/
theorem lockedRow_of_aim {phase : Option LogPlace} (aims : aimOf phase ≠ none) :
    lockedRow phase = aimOf phase ∧ inHandOf phase = .nothing := by
  cases phase with
  | none => exact absurd rfl aims
  | some place => cases place <;> first | exact ⟨rfl, rfl⟩ | exact absurd rfl aims

/-- A row whose record has no number yet is locked or being inserted. -/
theorem unnumberedKey_cases {phase : Option LogPlace} {key : RowKey}
    (unnumbered : (inHandOf phase).unnumberedKey = some key) :
    lockedRow phase = some key ∨ (inHandOf phase).insertedRow = some key := by
  cases phase with
  | none => cases unnumbered
  | some place =>
      cases place with
      | numbering op next =>
          cases op with
          | insert txnId table rowId row => exact .inr unnumbered
          | _ => exact .inl unnumbered
      | _ => cases unnumbered

/-- Under row locks, the changes that have no number yet are those of an `INSERT`. -/
theorem Logging.RowsLocked.changesNumbered (locked : config.RowsLocked i)
    (kept : config.KeepsLog i) (numbered : config.InsertsNumbered i) :
    config.ChangesNumbered i := by
  refine ⟨kept, fun aims j same => ?_⟩
  obtain ⟨key, aim⟩ := Option.ne_none_iff_exists'.mp aims
  obtain ⟨own, idle⟩ := lockedRow_of_aim aims
  rcases unnumberedKey_cases (same.trans aim) with held | inserted
  · refine locked (own ▸ aims) j ?_ (held.trans (own.trans aim).symm)
    rintro rfl
    rw [Logging.held, idle] at same
    exact aims same.symm
  · exact numbered aims j (inserted.trans aim.symm)

end Conditions

section Runs

variable [Runtime] {ι : Type} [DecidableEq ι]

/-- **The log gives the tables again** under row locks, as long as no update or delete
finds a row whose `INSERT` has no number yet. However the turns of any number of
sessions interleave, from empty tables and without a checkpoint: when all statements
have returned and left no transaction open, replaying the log over no tables at all
succeeds with the rows in memory. -/
theorem log_rebuilds_tables (db : Database) (programs : ι → List LogCall) (schedule : List ι)
    (fresh : db.storage.wal.file = []) (unmarked : db.storage.wal.checkpointFile = none)
    (empty : ∀ key, db.storage.view key = none)
    (locked : Along logStep Logging.RowsLocked (Logging.start db programs) schedule)
    (kept : Along logStep Logging.KeepsLog (Logging.start db programs) schedule)
    (numbered : Along logStep Logging.InsertsNumbered (Logging.start db programs) schedule)
    (finished : ∀ i, let client := (run logStep (Logging.start db programs) schedule).threads i
      client.phase = none ∧ client.session.transaction.txnId = none) :
    let live := (run logStep (Logging.start db programs) schedule).shared.storage
    ∃ count final, replayWal (.open (.open live.wal.file live.wal.checkpointFile) ∅) =
        (.ok count, final) ∧ final.view = live.view := by
  have nothing : (StorageEngine.open (.open [] none) ∅).view = db.storage.view := by
    funext key
    rw [empty key]
    rfl
  have ordered : Along logStep Logging.ChangesNumbered (Logging.start db programs) schedule :=
    locked.imp₂ logStep (fun _ _ locked both => locked.changesNumbered both.1 both.2)
      (kept.imp₂ logStep (fun _ _ => And.intro) numbered)
  refine Logging.replays nothing fresh ?_ ordered finished
  rw [unmarked]
  exact Nat.zero_le _

end Runs

section Example

/-- A session inserts a row, and another updates every row. -/
def insertAndUpdate : Bool → List LogCall
  | true => [insertCall 1]
  | false => [.update "t" (setT 2) none]

/-- The `UPDATE` comes when the record of the `INSERT` has a number and is not yet
written. -/
def lateRecord : List Bool :=
  List.replicate 8 true ++ List.replicate 17 false ++ List.replicate 9 true

/-- The record with the lower number is written last, and the log gives the updated
row. -/
theorem log_rebuilds_tables_late :
    let live := (run (@logStep Runtime.reference) (Logging.start oneTable insertAndUpdate)
      lateRecord).shared.storage
    live.scan "t" = [(1, ⟨[.int4 2], 2⟩)] ∧ ∃ count final,
      @replayWal Runtime.reference (.open (.open live.wal.file live.wal.checkpointFile) ∅) =
        (.ok count, final) ∧ final.view = live.view := by
  have rows : oneTable.storage.tables.toList.all (fun entry => entry.2.rows.isEmpty) = true := by
    decide +kernel
  have empty : ∀ key, oneTable.storage.view key = none := by
    intro key
    unfold StorageEngine.view tablesView
    cases found : oneTable.storage.tables[key.1]? with
    | none => rfl
    | some data =>
        have bare : data.rows.isEmpty = true := List.all_eq_true.mp rows (key.1, data)
          (ExtTreeMap.mem_toList_iff_getElem?_eq_some.mpr found)
        change data.rows[key.2]? = none
        rw [ExtTreeMap.isEmpty_iff.mp bare]
        exact ExtTreeMap.getElem?_empty
  exact ⟨by decide +kernel, @log_rebuilds_tables Runtime.reference Bool _ oneTable
    insertAndUpdate lateRecord (by decide +kernel) (by decide +kernel) empty (by decide +kernel)
    (by decide +kernel) (by decide +kernel) (by decide +kernel)⟩

/-- The `UPDATE` comes before the record of the `INSERT` has a number. -/
def lateNumber : List Bool :=
  List.replicate 7 true ++ List.replicate 17 false ++ List.replicate 10 true

/-- Both statements have returned `Ok`, under row locks, and the updated row is in
memory; replaying their log fails, as it finds the update before the row. -/
theorem update_overtakes_insert :
    let start := Logging.start oneTable insertAndUpdate
    let finish := run (@logStep Runtime.reference) start lateNumber
    Along (@logStep Runtime.reference) Logging.RowsLocked start lateNumber ∧
      Along (@logStep Runtime.reference) Logging.KeepsLog start lateNumber ∧
      (∀ i, (finish.threads i).phase = none ∧ (finish.threads i).program = [] ∧
        (finish.threads i).session.transaction.txnId = none) ∧
      finish.shared.storage.scan "t" = [(1, ⟨[.int4 2], 2⟩)] ∧
      (@replayWal Runtime.reference (.open (.open finish.shared.storage.wal.file
        finish.shared.storage.wal.checkpointFile) ∅)).1.toOption = none := by
  decide +kernel

end Example

end MoodengSQL
