import MoodengSQL.Foundation.Agreement
import MoodengSQL.Log.Histories
import MoodengSQL.Execution.Moves
import MoodengSQL.Recovery.Durability

/-!
# Process lifetimes

Whatever a session runs and however it ends, the log goes through steps of its
histories: transactions begin with the next id, records of transactions that have
begun are appended, and checkpoints are taken. So every sequence of process
lifetimes over one data directory is a history of its log.
-/

namespace MoodengSQL

open Foundation Foundation.Effect Relation Std

/-- What a call does to the log. -/
inductive WalStep (wal : WriteAheadLog) : WriteAheadLog → Prop
  | begin : WalStep wal (wal.allocTxnId.2.append (.begin wal.nextTxnId))
  | append {op : WalOp} (notBegin : ∀ id, op ≠ .begin id) (handed : wal.HandedOut op.txnId) :
      WalStep wal (wal.append op)
  | checkpoint : WalStep wal (wal.markCheckpoint wal.lsn).truncate

/-- Steps of the log hand out ids from the counter on. -/
theorem nextTxnId_le {wal wal' : WriteAheadLog} (steps : ReflTransGen WalStep wal wal') :
    wal.nextTxnId ≤ wal'.nextTxnId := by
  induction steps with
  | refl => exact Nat.le_refl _
  | tail _ step ih =>
      cases step with
      | begin => exact ih.trans (Nat.le_succ _)
      | append => exact ih
      | checkpoint => exact ih

/-- The id of the session's transaction has been handed out since the log was opened. -/
structure OwnsId (s : Executor) : Prop where
  positive : 0 < s.storage.wal.nextTxnId
  own : ∀ id, s.session.transaction.txnId = some id → s.storage.wal.HandedOut id

/-- The log goes from one state to the other by steps of its own, from sessions whose
transaction has an id of this lifetime to such sessions. -/
def WalMoves (s s' : Executor) : Prop :=
  OwnsId s → OwnsId s' ∧ ReflTransGen WalStep s.storage.wal s'.storage.wal

instance : IsPreorder Executor WalMoves where
  refl _ owns := ⟨owns, .refl⟩
  trans _ _ _ first second owns :=
    have ⟨owns, before⟩ := first owns
    have ⟨owns, after⟩ := second owns
    ⟨owns, before.trans after⟩

theorem OwnsId.of_steps {s s' : Executor} (owns : OwnsId s)
    (steps : ReflTransGen WalStep s.storage.wal s'.storage.wal)
    (same : s'.session.transaction.txnId = s.session.transaction.txnId) : OwnsId s' := by
  have counted := nextTxnId_le steps
  refine ⟨owns.positive.trans_le counted, fun id own => ?_⟩
  obtain ⟨positive, low⟩ := owns.own id (same ▸ own)
  exact ⟨positive, low.trans_le counted⟩

/-- The session stays in its transaction. -/
theorem WalMoves.of_steps {s s' : Executor}
    (steps : OwnsId s → ReflTransGen WalStep s.storage.wal s'.storage.wal)
    (same : s'.session.transaction.txnId = s.session.transaction.txnId) : WalMoves s s' :=
  fun owns => ⟨owns.of_steps (steps owns) same, steps owns⟩

theorem WalMoves.of_eq {s s' : Executor} (wal : s'.storage.wal = s.storage.wal)
    (same : s'.session.transaction.txnId = s.session.transaction.txnId) : WalMoves s s' :=
  .of_steps (fun _ => by rw [wal]) same

section Statements

variable [Runtime]

theorem walSteps_checkpoint (storage : StorageEngine) :
    WalStep storage.wal storage.checkpoint.wal := by
  unfold StorageEngine.checkpoint
  simp only [StorageEngine.wal_checkpointAll]
  exact .checkpoint

theorem walSteps_log (storage : StorageEngine) {op : WalOp} (notBegin : ∀ id, op ≠ .begin id)
    (handed : storage.wal.HandedOut op.txnId) :
    ReflTransGen WalStep storage.wal (storage.log op).wal := by
  unfold StorageEngine.log StorageEngine.maybeCheckpoint
  split
  · exact (ReflTransGen.single (.append notBegin handed)).tail
      (walSteps_checkpoint { storage with wal := storage.wal.append op })
  · exact .single (.append notBegin handed)

/-- A row is logged under the transaction of the session. -/
theorem WalMoves.log (s : Executor) (tables : Map String TableData) {op : WalOp}
    (own : s.session.transaction.txnId = some op.txnId) (notBegin : ∀ id, op ≠ .begin id) :
    WalMoves s { s with
      storage := (StorageEngine.mk tables s.storage.wal s.storage.datFiles).log op } :=
  .of_steps (fun owns => walSteps_log (StorageEngine.mk tables s.storage.wal s.storage.datFiles)
    notBegin (owns.own _ own)) rfl

theorem walMoves_insert (s : Executor) (table : String) (row : Row) (txnId : Nat)
    (own : s.session.transaction.txnId = some txnId) :
    WalMoves s { s with storage := (s.storage.insert table row txnId).2 } := by
  obtain ⟨rowId, tables, inserted, -⟩ := s.storage.insert_spec table row txnId
  rw [inserted]
  exact WalMoves.log s tables own nofun

theorem walMoves_update (s : Executor) (table : String) (rowId : Nat) (row : Row)
    (txnId version : Nat) (changed : Bool) (storage : StorageEngine)
    (own : s.session.transaction.txnId = some txnId)
    (updated : s.storage.update table rowId row txnId version = .ok (changed, storage)) :
    WalMoves s { s with storage } := by
  rcases StorageEngine.update_outcome updated with ⟨-, -, rfl⟩ | ⟨-, _, tables, -, -, rfl, -⟩
  · exact .of_eq rfl rfl
  · exact WalMoves.log s tables own nofun

theorem walMoves_delete (s : Executor) (table : String) (rowId txnId : Nat) (deleted : Bool)
    (storage : StorageEngine) (own : s.session.transaction.txnId = some txnId)
    (ran : s.storage.delete table rowId txnId = .ok (deleted, storage)) :
    WalMoves s { s with storage } := by
  obtain ⟨tables, -, -, rfl, -⟩ := StorageEngine.delete_outcome ran
  cases deleted with
  | true => exact WalMoves.log s tables own nofun
  | false => exact .of_eq rfl rfl

theorem wal_applyUpdate {storage storage' : StorageEngine} {table : String} {rowId txnId : Nat}
    {row : Row} {changed : Bool}
    (ran : storage.applyUpdate table rowId row false txnId = .ok (changed, storage')) :
    storage'.wal = storage.wal := by
  obtain ⟨tables, rfl, -⟩ := StorageEngine.applyUpdate_outcome ran
  rfl

theorem wal_applyDelete {storage storage' : StorageEngine} {table : String} {rowId txnId : Nat}
    {changed : Bool}
    (ran : storage.applyDelete table rowId false txnId = .ok (changed, storage')) :
    storage'.wal = storage.wal := by
  obtain ⟨tables, rfl, -⟩ := StorageEngine.applyDelete_outcome ran
  rfl

omit [Runtime] in
theorem walMoves_begin (s : Executor) (transaction : Transaction)
    (begun : transaction.txnId = some s.storage.wal.nextTxnId) :
    WalMoves s { s with
      storage := { s.storage with
        wal := s.storage.wal.allocTxnId.2.append (.begin s.storage.wal.nextTxnId) }
      session := { s.session with transaction } } := by
  refine fun owns => ⟨⟨Nat.succ_pos _, fun id own => ?_⟩, .single .begin⟩
  obtain rfl := Option.some.inj (begun.symm.trans own)
  exact ⟨owns.positive, Nat.lt_succ_self _⟩

omit [Runtime] in
theorem walMoves_finish (s : Executor) (txnId : Nat) (op : WalOp) (transaction : Transaction)
    (own : s.session.transaction.txnId = some txnId)
    (kind : op = .commit txnId ∨ op = .abort txnId) (ended : transaction.txnId = none) :
    WalMoves s { s with
      storage := { s.storage with wal := s.storage.wal.append op }
      session := { s.session with transaction } } := by
  refine fun owns => ⟨⟨owns.positive, fun id still => ?_⟩, .single ?_⟩
  · cases ended.symm.trans still
  · rcases kind with rfl | rfl
    · exact .append nofun (owns.own txnId own)
    · exact .append nofun (owns.own txnId own)

theorem walMoves_rules : SessionRules WalMoves where
  reindex _ _ _ := .of_eq rfl rfl
  bookkeeping _ _ _ same := .of_eq rfl same
  begins := walMoves_begin
  finishes := walMoves_finish
  inserts := walMoves_insert
  updates := walMoves_update
  deletes := walMoves_delete
  undoInsert _ _ _ _ := .of_eq rfl rfl
  undoUpdate _ _ _ _ _ _ ran := .of_eq (wal_applyUpdate ran) rfl
  undoDelete _ _ _ _ _ ran := .of_eq (wal_applyDelete ran) rfl

omit [Runtime] in
theorem walMoves_schema (s : Executor) (catalog : Catalog) (storage : StorageEngine)
    (indexes : IndexManager) (keeps : storage.wal = s.storage.wal) :
    WalMoves s { s with catalog, storage, indexes } :=
  .of_eq keeps rfl

/-- **Whatever a call does, the log goes through steps of its own.** -/
theorem walMoves_executeSession (stmts : List Statement) :
    Moves WalMoves (executeSession stmts) :=
  Moves.executeSession (walMoves_rules.statement (Moves.createTable walMoves_schema)
    (Moves.dropTable walMoves_schema) (Moves.createIndex walMoves_schema))
    (Moves.write fun _ => .of_eq rfl rfl) stmts

end Statements

section Lifetimes

/-- No id that is handed out between two states of the log is one that a record
carries which replay would have read in the first. -/
def WriteAheadLog.HandsOutUnread (wal wal' : WriteAheadLog) : Prop :=
  ∀ entry ∈ wal.readable, ¬(wal.nextTxnId ≤ entry.2.txnId ∧ entry.2.txnId < wal'.nextTxnId)

instance (wal wal' : WriteAheadLog) : Decidable (wal.HandsOutUnread wal') :=
  inferInstanceAs (Decidable (∀ _ ∈ _, _))

/-- A call extends the history of the log. -/
theorem History.walSteps {wal wal' : WriteAheadLog} {lifetime : Nat}
    {records : List LifetimeEntry} (history : History ⟨wal, lifetime, records, []⟩)
    (steps : ReflTransGen WalStep wal wal') (unread : wal.HandsOutUnread wal') :
    ∃ records', History ⟨wal', lifetime, records', []⟩ := by
  -- what is readable was so at first, or carries an id handed out before
  suffices extended : ∃ records', History ⟨wal', lifetime, records', []⟩ ∧
      ∀ entry ∈ wal'.readable, entry ∈ wal.readable ∨ entry.2.txnId < wal'.nextTxnId from
    extended.imp fun _ => And.left
  induction steps with
  | refl => exact ⟨records, history, fun _ => .inl⟩
  | @tail mid last before step ih =>
      have counted := nextTxnId_le (.single step)
      obtain ⟨known, history, readable⟩ := ih fun entry member ⟨low, high⟩ =>
        unread entry member ⟨low, high.trans_le counted⟩
      have written : ∀ {op : WalOp}, op.txnId < last.nextTxnId →
          ∀ entry ∈ (mid.append op).readable,
            entry ∈ wal.readable ∨ entry.2.txnId < last.nextTxnId := by
        intro op low entry member
        rw [WriteAheadLog.readable_append] at member
        rcases List.mem_append.mp member with old | new
        · exact (readable entry old).imp_right fun low => low.trans_le counted
        · rw [List.mem_singleton.mp (List.mem_of_mem_filter new)]
          exact .inr low
      cases step with
      | begin =>
          have next : mid.NextUnread := by
            intro entry member same
            rcases readable entry member with old | low
            · refine unread entry old ?_
              rw [same]
              exact ⟨nextTxnId_le before, Nat.lt_succ_self _⟩
            · exact Nat.lt_irrefl _ (same ▸ low)
          have begun := (history.alloc next).begin List.mem_cons_self
          rw [List.erase_cons_head] at begun
          exact ⟨_, begun, written (Nat.lt_succ_self _)⟩
      | append notBegin handed =>
          exact ⟨_, history.append notBegin handed, written handed.2⟩
      | checkpoint => exact ⟨_, history.mark.truncate, fun _ => nofun⟩

/-- A process at work: the number of its lifetime, its sessions and its database. -/
structure Service where
  lifetime : Nat
  clients : Nat → Session
  db : Database

namespace Service

/-- The state a call of a client starts in. -/
def executor (service : Service) (client : Nat) : Executor :=
  { service.db with session := service.clients client }

/-- A client's call leaves a session and a database. -/
def after (service : Service) (client : Nat) (s : Executor) : Service :=
  { service with
    clients := Function.update service.clients client s.session
    db := s.toDatabase }

/-- The next lifetime, in which nobody is connected yet. -/
def next (service : Service) (db : Database) : Service :=
  { lifetime := service.lifetime + 1, clients := fun _ => .new, db }

/-- The files a crash leaves, with any part of the log's end lost. -/
def filesLeft (service : Service) (kept : Nat) : Disk :=
  { service.db.disk with walLog := service.db.disk.walLog.take kept }

end Service

variable [Runtime]

/-- The processes over one data directory. Sessions connect and call the database in
any order, with any statements and any outcome; the process may end at any point, with
any part of the log's end lost, and be opened again. No call hands out an id that a
record carries which replay would read. -/
inductive Served : Service → Prop
  | fresh {db : Database} (opened : Database.open Disk.fresh = .ok db) :
      Served ⟨0, fun _ => .new, db⟩
  | connect {service : Service} (served : Served service) (client : Nat) :
      Served (service.after client { service.db with session := .new })
  | call {service : Service} (served : Served service) (client : Nat) (stmts : List Statement)
      (unread : service.db.storage.wal.HandsOutUnread
        (finalState (executeSession stmts) (service.executor client)).storage.wal) :
      Served (service.after client (finalState (executeSession stmts) (service.executor client)))
  | checkpoint {service : Service} (served : Served service) (client : Nat) :
      Served (service.after client (finalState checkpointDatabase (service.executor client)))
  | reopen {service : Service} {db : Database} (served : Served service) (kept : Nat)
      (opened : Database.open (service.filesLeft kept) = .ok db) : Served (service.next db)

/-- An opened database starts with the log as it was opened. -/
theorem open_wal {disk : Disk} {db : Database} (opened : Database.open disk = .ok db) :
    db.storage.wal = .open disk.walLog disk.checkpointBin := by
  obtain ⟨tables, storage, -⟩ := open_storage opened
  rw [storage]
  exact (ensureTables_spec _ _).2.1

/-- Nobody is in a transaction of an opened database. -/
theorem ownsId_opened {disk : Disk} {db : Database} (opened : Database.open disk = .ok db) :
    OwnsId { db with session := .new } := by
  refine ⟨?_, nofun⟩
  change 0 < db.storage.wal.nextTxnId
  rw [open_wal opened]
  exact Nat.zero_lt_one

/-- Every sequence of process lifetimes is a history of its log. -/
theorem Served.history {service : Service} (served : Served service) :
    (∀ client, OwnsId (service.executor client)) ∧
      ∃ records, History ⟨service.db.storage.wal, service.lifetime, records, []⟩ := by
  -- the client whose call it was, and the others, whose ids stay handed out
  have calls : ∀ {service : Service} {client : Nat} {s : Executor},
      (∀ client, OwnsId (service.executor client)) →
      (OwnsId s ∧ ReflTransGen WalStep service.db.storage.wal s.storage.wal) →
      ∀ other, OwnsId ((service.after client s).executor other) := by
    rintro service client s owns ⟨own, steps⟩ other
    by_cases same : other = client
    · subst same
      have session : (service.after other s).clients other = s.session :=
        Function.update_self ..
      rw [Service.executor, session]
      exact own
    · have session : (service.after client s).clients other = service.clients other :=
        Function.update_of_ne same ..
      refine (owns other).of_steps steps ?_
      rw [Service.executor, session]
      rfl
  induction served with
  | fresh opened =>
      refine ⟨fun _ => ownsId_opened opened, [], ?_⟩
      rw [open_wal opened]
      exact .start
  | @connect service served client ih =>
      obtain ⟨owns, records, history⟩ := ih
      exact ⟨calls owns ⟨⟨(owns client).positive, nofun⟩, .refl⟩, records, history⟩
  | @call service served client stmts unread ih =>
      obtain ⟨owns, records, history⟩ := ih
      have moved := walMoves_executeSession stmts (service.executor client) (owns client)
      exact ⟨calls owns moved, history.walSteps moved.2 unread⟩
  | @checkpoint service served client ih =>
      obtain ⟨owns, records, history⟩ := ih
      have steps : ReflTransGen WalStep service.db.storage.wal service.db.storage.checkpoint.wal :=
        .single (walSteps_checkpoint service.db.storage)
      have counter : service.db.storage.checkpoint.wal.nextTxnId =
          service.db.storage.wal.nextTxnId := by
        unfold StorageEngine.checkpoint
        simp only [StorageEngine.wal_checkpointAll]
        rfl
      refine ⟨calls owns ⟨(owns client).of_steps steps rfl, steps⟩,
        history.walSteps steps fun entry _ ⟨low, high⟩ => ?_⟩
      exact Nat.lt_irrefl _ (low.trans_lt (counter ▸ high))
  | @reopen service db served kept opened ih =>
      obtain ⟨-, records, history⟩ := ih
      refine ⟨fun _ => ownsId_opened opened, records.take kept, ?_⟩
      change History ⟨db.storage.wal, _, _, _⟩
      rw [open_wal opened]
      exact history.reopen kept

end Lifetimes

end MoodengSQL
