import MoodengSQL.Execution.Moves
import MoodengSQL.Foundation.Interleaving

/-!
# Clients of one database

Sessions share the database; each has its own transaction and its own place in
the statement it runs. A turn of a client is one computation of the executor in
its session. It tells where the statement stands afterwards, and a failure ends
the statement with what has been changed.
-/

namespace MoodengSQL

open Foundation Foundation.Effect Interleaving

/-- A client: its session, its place in the statement it is running, if any,
and the calls it has still to make. -/
structure Client (φ κ : Type) where
  session : Session
  phase : Option φ
  program : List κ

namespace Client

variable {φ κ ε α : Type}

/-- The database as the client's executor sees it. -/
def executor (client : Client φ κ) (db : Database) : Executor :=
  { toDatabase := db, session := client.session }

/-- A turn that runs a computation, reports its outcome and goes on as it says. -/
def perform (client : Client φ κ) (db : Database) (m : ExecM α) (next : α → Option φ)
    (report : Except Failure α → List ε) : Turn Database (Client φ κ) ε :=
  match m (client.executor db) with
  | .ok a s => {
      shared := s.toDatabase
      thread := { client with session := s.session, phase := next a }
      events := report (.ok a) }
  | .error e s => {
      shared := s.toDatabase
      thread := { client with session := s.session, phase := none }
      events := report (.error e) }

variable {client : Client φ κ} {db : Database} {m : ExecM α} {next : α → Option φ}
  {report : Except Failure α → List ε}

theorem perform_of_ok {a : α} {s : Executor} (ran : m (client.executor db) = .ok a s) :
    client.perform db m next report = {
      shared := s.toDatabase
      thread := { client with session := s.session, phase := next a }
      events := report (.ok a) } := by
  simp only [perform, ran]

theorem perform_of_error {e : Failure} {s : Executor}
    (ran : m (client.executor db) = .error e s) :
    client.perform db m next report = {
      shared := s.toDatabase
      thread := { client with session := s.session, phase := none }
      events := report (.error e) } := by
  simp only [perform, ran]

/-- What holds after every outcome of a turn. -/
theorem perform_cases (claim : Turn Database (Client φ κ) ε → Prop)
    (goesOn : ∀ a s, m (client.executor db) = .ok a s → claim {
      shared := s.toDatabase
      thread := { client with session := s.session, phase := next a }
      events := report (.ok a) })
    (fails : ∀ e s, m (client.executor db) = .error e s → claim {
      shared := s.toDatabase
      thread := { client with session := s.session, phase := none }
      events := report (.error e) }) : claim (client.perform db m next report) := by
  cases ran : m (client.executor db) with
  | ok a s =>
      rw [perform_of_ok ran]
      exact goesOn a s ran
  | error e s =>
      rw [perform_of_error ran]
      exact fails e s ran

/-- What is left of a statement, undisturbed, ends in the same state before and
after a turn of it. -/
theorem perform_remaining (client : Client φ κ) (db : Database) (m : ExecM α)
    (next : α → Option φ) (report : Except Failure α → List ε)
    (remaining : Option φ → ExecM PUnit) (finished : remaining none = pure ⟨⟩) :
    let turn := client.perform db m next report
    finalState (remaining turn.thread.phase) (turn.thread.executor turn.shared) =
      finalState (m >>= fun a => remaining (next a)) (client.executor db) := by
  dsimp only
  cases outcome : m (client.executor db) with
  | ok a s =>
      rw [finalState_bind_of_ok outcome, perform_of_ok outcome]
      rfl
  | error e s =>
      rw [finalState_bind_of_error outcome, perform_of_error outcome]
      dsimp only
      rw [finished]
      rfl

end Client

section Bookkeeping

variable {rel : Executor → Executor → Prop} [IsPreorder Executor rel]
  (logs : ∀ (s : Executor) (session : Session) (activeWriteTxns : Nat) (wal : WriteAheadLog),
    rel s { s with session, activeWriteTxns, storage := { s.storage with wal } })

include logs

omit [IsPreorder Executor rel] in
theorem Moves.setSession (session : Executor → Session) (activeWriteTxns : Executor → Nat) :
    Moves rel (modify fun s => { s with
      session := session s, activeWriteTxns := activeWriteTxns s } : ExecM PUnit) :=
  Moves.write fun s => logs s (session s) (activeWriteTxns s) s.storage.wal

/-- Transaction operations change the log and the session. -/
theorem Moves.transaction {α : Type}
    (op : Transaction → WriteAheadLog → Except Failure (α × Transaction × WriteAheadLog)) :
    Moves rel (ExecM.liftTransaction op) := by
  intro s
  cases outcome : op s.session.transaction s.storage.wal with
  | error e =>
      have same : finalState (ExecM.liftTransaction op) s = s := by
        simp only [finalState, ExecM.liftTransaction, outcome]
      rw [same]
      exact refl_of rel s
  | ok result =>
      have same : finalState (ExecM.liftTransaction op) s = { s with
          storage := { s.storage with wal := result.2.2 }
          session := { s.session with transaction := result.2.1 } } := by
        simp only [finalState, ExecM.liftTransaction, outcome]
      rw [same]
      exact logs s _ _ _

theorem Moves.begin : Moves rel begin := by
  refine .seq .read fun s => ?_
  have rest : Moves rel (do
      modify fun s => { s with session := { s.session with autoCommit := false } }
      ExecM.liftTransaction fun txn wal => (txn.begin wal).map fun r => ((), r)
      modify fun s => { s with activeWriteTxns := s.activeWriteTxns + 1 }
      return QueryResult.modified 0 "BEGIN" : ExecM QueryResult) :=
    .seq (Moves.setSession logs _ _) fun _ => .seq (Moves.transaction logs _) fun _ =>
      .seq (Moves.setSession logs _ _) fun _ => .ret _
  dsimp only
  split
  · exact .seq (.fail _) fun _ => rest
  · exact rest

theorem Moves.commit : Moves rel commit := by
  refine .seq .read fun s => ?_
  have rest : Moves rel (do
      modify fun s => { s with session := { s.session with autoCommit := false } }
      ExecM.liftTransaction fun txn wal => (txn.commit wal).map fun r => ((), r)
      modify fun s => { s with activeWriteTxns := s.activeWriteTxns - 1 }
      return QueryResult.modified 0 "COMMIT" : ExecM QueryResult) :=
    .seq (Moves.setSession logs _ _) fun _ => .seq (Moves.transaction logs _) fun _ =>
      .seq (Moves.setSession logs _ _) fun _ => .ret _
  dsimp only
  split
  · exact .seq (.fail _) fun _ => rest
  · exact rest

theorem Moves.beginWriteTxn : Moves rel beginWriteTxn := by
  refine .seq .read fun s => ?_
  cases s.session.transaction.txnId with
  | some txnId => exact .ret _
  | none =>
      exact .seq (Moves.transaction logs _) fun _ => .seq (Moves.setSession logs _ _) fun _ =>
        .ret _

theorem Moves.finishAutoCommitIfNeeded : Moves rel finishAutoCommitIfNeeded := by
  refine .seq .read fun s => ?_
  dsimp only
  split
  · exact .seq (Moves.transaction logs _) fun _ => Moves.setSession logs _ _
  · exact .ret _

end Bookkeeping

end MoodengSQL
