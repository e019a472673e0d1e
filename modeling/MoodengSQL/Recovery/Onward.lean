import MoodengSQL.Recovery.Reaches

/-!
# From one reachable state to a later one

What a session does between two of its states, with the row changes it makes on
the way. Statements that return `Ok`, and those that fail before they change a row,
lead onward.
-/

namespace MoodengSQL

open Foundation Foundation.Effect Relation Std

section Steps

variable [Runtime]

/-- What leads from a state a session reaches to the next, with the row changes it makes. -/
inductive Advances (named : String → Prop) (s : Executor) (l : RowLedger) :
    List (Change RowKey (List Value)) → Executor → RowLedger → Prop
  | begin {autoCommit : Bool} (idle : s.session.transaction.active = false) :
      Advances named s l [] (s.opened autoCommit) (l.begin s.storage.wal.nextTxnId)
  | row {s' : Executor} {txnId : Nat} {key : RowKey} {change : RowChange}
      (running : s.session.transaction.txnId = some txnId) (step : RowStep txnId key change s s')
      (allowed : ∀ table ∈ s'.storage.tables, named table) :
      Advances named s l [(txnId, change.cellOp key)] s' (ledgerAfter s l txnId key change)
  | commit {txnId : Nat} (running : s.session.transaction.txnId = some txnId) :
      Advances named s l [] (s.committed txnId) (l.commit txnId)
  | rollback {s' : Executor} {txnId : Nat} {result : QueryResult}
      (running : s.session.transaction.txnId = some txnId)
      (unchanged : s.session.autoCommit = true → ∀ change ∈ l.live, change.1 ∈ l.committed)
      (ran : rollback s = .ok result s') (allowed : ∀ table ∈ s'.storage.tables, named table) :
      Advances named s l [] s' (l.abort txnId)
  | schema {s' : Executor}
      (outside : s.session.transaction.active = false ∨ s.session.autoCommit = true)
      (unchanged : ∀ change ∈ l.live, change.1 ∈ l.committed) (step : SchemaStep s s')
      (allowed : ∀ table ∈ s'.storage.tables, named table) :
      Advances named s l [] s'.persisted (l.clear (droppedBy s s'))
  | checkpoint :
      Advances named s l [] { s with storage := s.storage.checkpoint } l.checkpoint
  | persist : Advances named s l [] s.persisted l

/-- From a state to a later one, with the row changes made on the way. -/
inductive Onward (named : String → Prop) (start : Executor) (ledger : RowLedger) :
    List (Change RowKey (List Value)) → Executor → RowLedger → Prop
  | here : Onward named start ledger [] start ledger
  | step {s s' : Executor} {l l' : RowLedger}
      {before made : List (Change RowKey (List Value))}
      (onward : Onward named start ledger before s l)
      (advances : Advances named s l made s' l') :
      Onward named start ledger (before ++ made) s' l'

variable {named : String → Prop} {s mid s' : Executor} {l lMid l' : RowLedger}
  {made later : List (Change RowKey (List Value))} {txnId : Nat}

theorem Advances.reaches (advances : Advances named s l made s' l')
    (reached : Reaches named s l) : Reaches named s' l' := by
  cases advances with
  | begin idle => exact .begin reached idle
  | row running step allowed => exact .row reached running step allowed
  | commit running => exact .commit reached running
  | rollback running unchanged ran allowed => exact .rollback reached running unchanged ran allowed
  | schema outside unchanged step allowed => exact .schema reached outside unchanged step allowed
  | checkpoint => exact .checkpoint reached
  | persist => exact .persist reached

/-- What comes after a reachable state is reachable. -/
theorem Onward.reaches (onward : Onward named s l made s' l') (reached : Reaches named s l) :
    Reaches named s' l' := by
  induction onward with
  | here => exact reached
  | step _ advances ih => exact advances.reaches ih

theorem Advances.onward (advances : Advances named s l made s' l') :
    Onward named s l made s' l' := .step .here advances

theorem Onward.trans (first : Onward named s l made mid lMid)
    (second : Onward named mid lMid later s' l') : Onward named s l (made ++ later) s' l' := by
  induction second with
  | here =>
      rw [List.append_nil]
      exact first
  | step _ advances ih =>
      rw [← List.append_assoc]
      exact .step ih advances

end Steps

section Statements

variable [Runtime] {named : String → Prop} {s s' : Executor} {l : RowLedger}

/-- A failed statement changed no row: it left the state as it was, or with the
transaction it had opened for itself. -/
def FailedEarly (s s' : Executor) : Prop :=
  s' = s ∨ s.session.transaction.active = false ∧ s' = s.opened true

/-- Between statements, a transaction opened for a single statement has changed
nothing. -/
def Rested (s : Executor) (l : RowLedger) : Prop :=
  s.session.autoCommit = true → ∀ change ∈ l.live, change.1 ∈ l.committed

omit [Runtime] in
theorem Kept.committed_of_idle (kept : Kept s l) (idle : s.session.transaction.active = false) :
    ∀ change ∈ l.live, change.1 ∈ l.committed := by
  have session := kept.tracks.session_eq_new idle
  intro change member
  have owned := kept.sound.owned change member
  simpa [Ledger.counts, kept.running, session, Session.new, Transaction.idle] using owned

/-- A row step takes no table away. -/
theorem tables_rowStep {txnId : Nat} {key : RowKey} {change : RowChange}
    (step : RowStep txnId key change s s') :
    ∀ table ∈ s.storage.tables, table ∈ s'.storage.tables := by
  obtain ⟨tables, stored, grows, -⟩ := step.stored
  rw [stored, StorageEngine.tables_log]
  exact grows

theorem onward_rowSteps {txnId : Nat} (running : s.session.transaction.txnId = some txnId)
    (steps : ReflTransGen (SomeRowStep txnId) s s')
    (allowed : ∀ table ∈ s'.storage.tables, named table) :
    ∃ made l', Onward named s l made s' l' ∧
      s'.session.transaction.txnId = some txnId ∧ (l.stale = false → l'.stale = false) := by
  induction steps with
  | refl => exact ⟨_, l, .here, running, id⟩
  | tail _ step ih =>
      obtain ⟨key, change, step⟩ := step
      obtain ⟨made, l', onward, running, stale⟩ := ih fun table member =>
        allowed table (tables_rowStep step table member)
      refine ⟨_, _, .step onward (.row running step allowed), step.running running,
        fun current => ?_⟩
      unfold ledgerAfter
      split
      · rfl
      · exact stale current

/-- A session step leads onward from a reachable state. -/
theorem Reaches.sessionStep (reached : Reaches named s l) (rested : Rested s l)
    (step : SessionStep s s') (allowed : ∀ table ∈ s'.storage.tables, named table) :
    ∃ made l', Onward named s l made s' l' ∧ Rested s' l' ∧
      (l.stale = false → l'.stale = false) := by
  cases step with
  | begin idle => exact ⟨_, _, .step .here (.begin idle), nofun, id⟩
  | commit active running => exact ⟨_, _, .step .here (.commit running), nofun, id⟩
  | @rollback txnId undone active running undo =>
      have idle := (reached.kept.consistent.rollback reached.kept.tracks undo).2.1
      refine ⟨_, _, .step .here (.rollback running rested
        (rollback_eq_ok.mpr ⟨txnId, undone, active, running, undo, rfl, rfl⟩) allowed),
        fun automatic => ?_, id⟩
      change undone.session.autoCommit = true at automatic
      rw [idle] at automatic
      cases automatic
  | rows step =>
      cases step with
      | read => exact ⟨_, l, .here, rested, id⟩
      | @write txnId entered changed _ enters rows leaves =>
          obtain ⟨_, l₁, entered, running, stale₁⟩ : ∃ made l₁,
              Onward named s l made entered l₁ ∧
              entered.session.transaction.txnId = some txnId ∧
              (l.stale = false → l₁.stale = false) := by
            cases enters with
            | explicit inside => exact ⟨_, l, .here, inside, id⟩
            | automatic outside idle => exact ⟨_, _, .step .here (.begin idle), rfl, id⟩
          have kept : s'.storage.tables = changed.storage.tables := by
            cases leaves <;> rfl
          obtain ⟨_, l₂, changed, running, stale₂⟩ := onward_rowSteps running rows (kept ▸ allowed)
          have onward := entered.trans changed
          cases leaves with
          | explicit inside =>
              refine ⟨_, l₂, onward, fun automatic => ?_, stale₂ ∘ stale₁⟩
              rw [inside] at automatic
              cases automatic
          | automatic inside running =>
              exact ⟨_, _, .step onward (.commit running), nofun, stale₂ ∘ stale₁⟩

omit [Runtime] in
theorem tables_persisted (s : Executor) (metaChanged : Bool) :
    (if metaChanged then s.persisted else s).storage = s.storage := by
  cases metaChanged <;> rfl

/-- A DDL statement leads onward from a reachable state. -/
theorem Reaches.ddl {stmt : Statement} {result : QueryResult} (reached : Reaches named s l)
    (rested : Rested s l) (isDdl : stmt.isDdl = true)
    (outside : s.session.transaction.active = false ∨ s.session.autoCommit = true)
    (ran : executeSession [stmt] s = .ok result s')
    (allowed : ∀ table ∈ s'.storage.tables, named table) :
    ∃ part, Onward named s l [] s' (l.clear part) ∧ s'.session = s.session := by
  obtain ⟨mid, executed, rfl⟩ := executeSession_single.mp ran
  rw [tables_persisted] at allowed
  obtain ⟨step, changed⟩ := (executeStatement_ok executed).1 isDdl
  rw [if_pos changed]
  have unchanged : ∀ change ∈ l.live, change.1 ∈ l.committed :=
    outside.elim reached.kept.committed_of_idle rested
  exact ⟨_, .step .here (.schema outside unchanged step allowed), step.storage.1⟩

/-- A statement that is not DDL leads onward from a reachable state. -/
theorem Reaches.statement {stmt : Statement} {result : QueryResult} (reached : Reaches named s l)
    (rested : Rested s l) (notDdl : stmt.isDdl = false)
    (ran : executeSession [stmt] s = .ok result s')
    (allowed : ∀ table ∈ s'.storage.tables, named table) :
    ∃ made l', Onward named s l made s' l' ∧ Rested s' l' ∧
      (l.stale = false → l'.stale = false) := by
  obtain ⟨mid, executed, rfl⟩ := executeSession_single.mp ran
  rw [tables_persisted] at allowed
  obtain ⟨made, l', onward, rested, stale⟩ :=
    reached.sessionStep rested ((executeStatement_ok executed).2.1 notDdl) allowed
  split
  · exact ⟨_, l', .step onward .persist, rested, stale⟩
  · exact ⟨_, l', onward, rested, stale⟩

omit [Runtime] in
theorem FailedEarly.onward [Runtime] (early : FailedEarly s s') (reached : Reaches named s l)
    (rested : Rested s l) : ∃ made l', Onward named s l made s' l' ∧ Rested s' l' := by
  rcases early with rfl | ⟨idle, rfl⟩
  · exact ⟨_, l, .here, rested⟩
  · exact ⟨_, _, .step .here (.begin idle), fun _ => reached.kept.committed_of_idle idle⟩

end Statements

end MoodengSQL
