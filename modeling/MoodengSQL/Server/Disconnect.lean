import MoodengSQL.Concurrency.Backup
import MoodengSQL.Server.Gates

/-!
# Connections that end

The connections of a server take turns over one database, each turn one passage
through the message loop. A connection ends at the end of its input, at a
`Terminate` message, or by a failure; its session is dropped, and with it
whatever transaction is open in it. The counter of open write transactions is
never behind the transactions open in the connections, and a dropped transaction
stays counted.
-/

namespace MoodengSQL

open Foundation Effect Interleaving ConnM

section Turns

variable [Runtime] (around : Surroundings)

/-- One passage through the message loop: whether it goes on. -/
def loopTurn : ConnM Bool := do
  match ← readMessage with
  | none => return false
  | some (msgType, payload) => handleMessage around msgType payload

/-- The message loop takes such turns until one ends it. -/
theorem messageLoop_succ (fuel : Nat) : messageLoop around (fuel + 1) = (do
    if ← loopTurn around then messageLoop around fuel else return) := by
  rw [messageLoop, loopTurn]
  simp only [bind_assoc]
  congr 1
  funext next
  cases next with
  | none => rfl
  | some message => rfl

/-- What a connection has to itself. -/
structure Peer where
  input : List UInt8
  outages : List Bool
  conn : ConnectionSession
  trace : List ConnEvent

/-- The connection over the database as it is now. -/
def Peer.on (peer : Peer) (db : Database) : ConnState :=
  { input := peer.input, outages := peer.outages, conn := peer.conn, db, trace := peer.trace }

/-- What the connection keeps to itself. -/
def ConnState.peer (s : ConnState) : Peer :=
  { input := s.input, outages := s.outages, conn := s.conn, trace := s.trace }

/-- A turn of a connection, until it has ended. `run_session` returns without a
word to the engine. -/
def connectionTurn (db : Database) : Option Peer → Turn Database (Option Peer) Unit
  | none => .wait db none
  | some peer => match loopTurn around (peer.on db) with
      | .ok true s => { shared := s.db, thread := some s.peer, events := [] }
      | .ok false s => { shared := s.db, thread := none, events := [] }
      | .error _ s => { shared := s.db, thread := none, events := [] }

end Turns

section Counting

/-- A transaction has an id while it is active. -/
def Session.Proper (session : Session) : Prop :=
  session.transaction.active = session.transaction.txnId.isSome

/-- What a session adds to the count of open transactions. -/
def Session.weight (session : Session) : Nat := if session.transaction.active then 1 else 0

/-- A session and the counter go together: a transaction that opens is counted. -/
def Counts (before after : Session × Nat) : Prop :=
  before.1.Proper → after.1.Proper ∧ before.2 + after.1.weight ≤ after.2 + before.1.weight

instance : IsPreorder (Session × Nat) Counts where
  refl _ proper := ⟨proper, le_rfl⟩
  trans a b c first second proper := by
    obtain ⟨properMid, countedMid⟩ := first proper
    obtain ⟨properEnd, countedEnd⟩ := second properMid
    exact ⟨properEnd, by omega⟩

/-- The same over states of the executor. -/
def ExecCounts (s s' : Executor) : Prop :=
  Counts (s.session, s.activeWriteTxns) (s'.session, s'.activeWriteTxns)

instance : IsPreorder Executor ExecCounts where
  refl s := refl_of Counts (s.session, s.activeWriteTxns)
  trans _ _ _ first second := trans_of Counts first second

theorem execCounts_of_txnKept {s s' : Executor} (kept : TxnKept s s') : ExecCounts s s' := by
  intro proper
  unfold Session.Proper Session.weight at *
  simp only at proper ⊢
  rw [kept.active, kept.txnId, kept.counter]
  exact ⟨proper, le_rfl⟩

theorem counts_begin : Moves ExecCounts begin := by
  rintro ⟨db, ⟨active, txnId, undo⟩, autoCommit⟩ proper
  cases active with
  | true => exact ⟨proper, le_rfl⟩
  | false => exact ⟨rfl, le_rfl⟩

theorem counts_commit : Moves ExecCounts commit := by
  rintro ⟨db, ⟨active, txnId, undo⟩, autoCommit⟩ proper
  cases active with
  | false => exact ⟨proper, le_rfl⟩
  | true =>
      cases txnId with
      | none => cases proper
      | some txnId => exact ⟨rfl, by change db.activeWriteTxns + 0 ≤ db.activeWriteTxns - 1 + 1; omega⟩

theorem counts_beginWriteTxn : Moves ExecCounts beginWriteTxn := by
  rintro ⟨db, ⟨active, txnId, undo⟩, autoCommit⟩ proper
  cases txnId with
  | some txnId => exact ⟨proper, le_rfl⟩
  | none =>
      cases active with
      | true => cases proper
      | false => exact ⟨rfl, le_rfl⟩

theorem counts_finishAutoCommit : Moves ExecCounts finishAutoCommitIfNeeded := by
  rintro ⟨db, ⟨active, txnId, undo⟩, autoCommit⟩ proper
  cases autoCommit with
  | false => exact ⟨proper, le_rfl⟩
  | true =>
      cases txnId with
      | none => exact ⟨proper, le_rfl⟩
      | some txnId =>
          cases active with
          | false => cases proper
          | true => exact ⟨rfl, by change db.activeWriteTxns + 0 ≤ db.activeWriteTxns - 1 + 1; omega⟩

variable [Runtime]

theorem sessionKept_undoAll (records : List UndoRecord) : Moves SessionKept (undoAll records) :=
  Moves.undoAll (fun _ _ _ => ⟨rfl, rfl⟩) (fun _ _ _ _ => ⟨rfl, rfl⟩)
    (fun _ _ _ _ _ _ _ => ⟨rfl, rfl⟩) (fun _ _ _ _ _ _ => ⟨rfl, rfl⟩) records

/-- A rollback, complete or not, leaves no transaction in the session and takes
off at most what the transaction counted. -/
theorem counts_rollback : Moves ExecCounts rollback := by
  rintro ⟨db, ⟨active, txnId, undo⟩, autoCommit⟩ proper
  cases active with
  | false => exact ⟨proper, le_rfl⟩
  | true =>
      cases txnId with
      | none => cases proper
      | some txnId =>
          let aborted : Executor := { db with
            storage := { db.storage with wal := db.storage.wal.append (.abort txnId) }
            session := .new }
          have logged : logAbort ⟨db, ⟨true, some txnId, undo⟩, autoCommit⟩ =
              .ok (some txnId, undo.reverse) aborted := rfl
          have kept := sessionKept_undoAll undo.reverse aborted
          rw [rollback_eq, finalState_bind_of_ok logged]
          cases outcome : undoAll undo.reverse aborted with
          | error e undone =>
              rw [finalState_of_error outcome] at kept
              rw [finalState_bind_of_error outcome]
              dsimp only
              rw [kept.session, kept.counter]
              exact ⟨rfl, Nat.le_succ _⟩
          | ok u undone =>
              rw [finalState_of_ok outcome] at kept
              rw [finalState_bind_of_ok outcome]
              change undone.session.Proper ∧
                db.activeWriteTxns + undone.session.weight ≤ undone.activeWriteTxns - 1 + 1
              rw [kept.session, kept.counter]
              exact ⟨rfl, by change db.activeWriteTxns + 0 ≤ db.activeWriteTxns - 1 + 1; omega⟩

omit [Runtime] in
theorem counts_writeStatement {loop : Nat → ExecM Nat} {result : Nat → QueryResult}
    (keeps : ∀ txnId, Moves TxnKept (loop txnId)) :
    Moves ExecCounts (do
      let txnId ← beginWriteTxn
      let count ← loop txnId
      finishAutoCommitIfNeeded
      return result count : ExecM QueryResult) := by
  refine .seq counts_beginWriteTxn fun txnId => ?_
  refine .seq (fun s => execCounts_of_txnKept (keeps txnId s)) fun count => ?_
  exact .seq counts_finishAutoCommit fun _ => .ret _

omit [Runtime] in
/-- Steps that leave the session and the counter alone. -/
theorem execCounts_of_same {s s' : Executor} (session : s'.session = s.session)
    (counter : s'.activeWriteTxns = s.activeWriteTxns) : ExecCounts s s' := by
  unfold ExecCounts
  rw [session, counter]
  exact refl_of Counts _

/-- **Every statement keeps the session and the counter together**, whatever its
outcome. -/
theorem counts_statement (stmt : Statement) : Moves ExecCounts (executeStatement stmt) := by
  cases stmt with
  | startTransaction => exact counts_begin
  | commit => exact counts_commit
  | rollback => exact counts_rollback
  | createTable name columns constraints =>
      exact Moves.createTable (fun _ _ _ _ _ => execCounts_of_same rfl rfl) _ _ _
  | drop objectType names =>
      cases objectType with
      | table =>
          cases names with
          | nil => exact .fail _
          | cons name rest =>
              exact Moves.dropTable (fun _ _ _ _ _ => execCounts_of_same rfl rfl) _
      | other display => exact .fail _
  | insert stmt =>
      dsimp only [executeStatement]
      unfold insert
      cases stmt.source with
      | none => exact .fail _
      | some source =>
          refine .seq .read fun s => .seq (Moves.lift _) fun schema => .seq (Moves.lift _)
            fun rows => .seq (Moves.lift _) fun onConflict => ?_
          apply counts_writeStatement
          exact fun txnId => txnKept_insertRows _ _ _ _ _ _
  | query query => exact .seq .read fun _ => Moves.lift _
  | update table assignments selection =>
      refine .seq .read fun s => .seq (Moves.lift _) fun schema => ?_
      apply counts_writeStatement
      exact fun txnId => txnKept_updateRows _ _ _ _ _ _ _
  | delete relations selection =>
      refine .seq .read fun s => .seq (Moves.lift _) fun schema => ?_
      apply counts_writeStatement
      exact fun txnId => txnKept_deleteRows _ _ _ _ _ _
  | createIndex name tableName columns unique =>
      exact Moves.createIndex (fun _ _ _ _ _ => execCounts_of_same rfl rfl) _ _ _ _
  | explain statement => exact .seq .read fun _ => Moves.lift _
  | other display => exact .fail _

/-- So does every call. -/
theorem counts_executeText (text : Except Failure (List Statement)) :
    Moves ExecCounts (executeText text) := by
  refine .seq (Moves.lift _) fun statements => ?_
  exact Moves.executeSession counts_statement (Moves.write fun _ => execCounts_of_same rfl rfl) _

/-- The same over states of a connection. -/
def ConnCounts (s s' : ConnState) : Prop :=
  Counts (s.conn.session, s.db.activeWriteTxns) (s'.conn.session, s'.db.activeWriteTxns)

instance : IsPreorder ConnState ConnCounts where
  refl s := refl_of Counts (s.conn.session, s.db.activeWriteTxns)
  trans _ _ _ first second := trans_of Counts first second

variable (around : Surroundings)

omit [Runtime] in
/-- Steps that leave the session and the database alone. -/
theorem connCounts_of_same {s s' : ConnState} (session : s'.conn.session = s.conn.session)
    (db : s'.db = s.db) : ConnCounts s s' := by
  unfold ConnCounts
  rw [session, db]
  exact refl_of Counts _

theorem counts_executeSql (sql : String) : Moves ConnCounts (executeSql around sql) := by
  intro s
  have counted := counts_executeText (around.parseSql sql) { s.db with session := s.conn.session }
  unfold finalState at counted ⊢
  unfold executeSql
  dsimp only
  cases outcome : executeText (around.parseSql sql) { s.db with session := s.conn.session } with
  | ok result after =>
      rw [outcome] at counted
      exact counted
  | error e after =>
      rw [outcome] at counted
      cases e <;> exact counted

theorem serves_connCounts : Serves around ConnCounts where
  message _ _ _ _ := connCounts_of_same rfl rfl
  ready _ _ := connCounts_of_same rfl rfl
  write s := by
    obtain ⟨input, outages, conn, db, trace⟩ := s
    rcases outages with _ | ⟨_ | _, rest⟩ <;> exact connCounts_of_same rfl rfl
  flag _ _ := connCounts_of_same rfl rfl
  keep _ _ same := connCounts_of_same same rfl
  execute := counts_executeSql around

theorem counts_loopTurn : Moves ConnCounts (loopTurn around) := by
  refine .seq (moves_readMessage (fun _ _ => connCounts_of_same rfl rfl)
    fun _ _ _ => connCounts_of_same rfl rfl) fun next => ?_
  cases next with
  | none => exact .ret _
  | some message => exact (serves_connCounts around).handleMessage _ _

end Counting

section Endings

variable {ι : Type} [DecidableEq ι] [Runtime] (around : Surroundings)

/-- A connection with a transaction open. -/
def InTransaction : Option Peer → Prop
  | some peer => peer.conn.session.transaction.active = true
  | none => False

/-- The counter is not behind the transactions open in the connections. -/
structure Counter (config : Interleaving.Configuration ι Database (Option Peer) Unit) : Prop where
  proper : ∀ i peer, config.threads i = some peer → peer.conn.session.Proper
  counted : ∃ count, Counted InTransaction config.threads count ∧
    count ≤ config.shared.activeWriteTxns

/-- What a turn of a connection leaves: it goes on, or its session is dropped. -/
theorem advance_serving {config : Interleaving.Configuration ι Database (Option Peer) Unit} {i : ι}
    {peer : Peer} (serving : config.threads i = some peer) :
    ∃ s thread, ConnCounts (peer.on config.shared) s ∧ (thread = some s.peer ∨ thread = none) ∧
      advance (connectionTurn around) config i = { config with
        shared := s.db
        threads := Function.update config.threads i thread } := by
  unfold advance
  rw [serving]
  dsimp only [connectionTurn]
  cases outcome : loopTurn around (peer.on config.shared) with
  | ok goesOn s =>
      have counted := (counts_loopTurn around).of_ok outcome
      cases goesOn with
      | true => exact ⟨s, some s.peer, counted, .inl rfl, by simp⟩
      | false => exact ⟨s, none, counted, .inr rfl, by simp⟩
  | error e s =>
      exact ⟨s, none, (counts_loopTurn around).of_error outcome, .inr rfl, by simp⟩

/-- A connection that has ended does nothing. -/
theorem advance_ended {config : Interleaving.Configuration ι Database (Option Peer) Unit} {i : ι}
    (ended : config.threads i = none) : advance (connectionTurn around) config i = config := by
  unfold advance
  rw [ended]
  simp [connectionTurn, Turn.wait, ← ended]

/-- Turns keep the counter from falling behind. -/
theorem Counter.advance {config : Interleaving.Configuration ι Database (Option Peer) Unit}
    (counter : Counter config) (i : ι) :
    Counter (advance (connectionTurn around) config i) := by
  cases serving : config.threads i with
  | none =>
      rw [advance_ended around serving]
      exact counter
  | some peer =>
      obtain ⟨proper, count, counted, notBehind⟩ := counter
      obtain ⟨s, thread, counts, goesOn, same⟩ := advance_serving around serving
      obtain ⟨properAfter, kept⟩ := counts (proper i peer serving)
      rw [same]
      refine ⟨fun j other held => ?_, ?_⟩
      · by_cases isTurn : j = i
        · subst isTurn
          dsimp only at held
          rw [Function.update_self] at held
          subst held
          rcases goesOn with stays | ends
          · cases stays
            exact properAfter
          · cases ends
        · dsimp only at held
          rw [Function.update_of_ne isTurn] at held
          exact proper j other held
      · dsimp only [Peer.on] at kept
        have was : InTransaction (config.threads i) ↔ peer.conn.session.transaction.active = true := by
          rw [serving]
          exact Iff.rfl
        have is : InTransaction thread → s.conn.session.transaction.active = true := by
          intro inside
          rcases goesOn with rfl | rfl
          · exact inside
          · exact inside.elim
        unfold Session.weight at kept
        by_cases before : InTransaction (config.threads i) <;>
          by_cases after : InTransaction thread
        · refine ⟨count, counted.same (iff_of_true after before), ?_⟩
          rw [if_pos (is after), if_pos (was.mp before)] at kept
          exact notBehind.trans (Nat.le_of_add_le_add_right kept)
        · refine ⟨count - 1, counted.leave before after, ?_⟩
          rw [if_pos (was.mp before)] at kept
          dsimp only
          omega
        · refine ⟨count + 1, counted.enter before after, ?_⟩
          rw [if_pos (is after), if_neg fun active => before (was.mpr active)] at kept
          dsimp only
          omega
        · refine ⟨count, counted.same (iff_of_false after before), ?_⟩
          rw [if_neg fun active => before (was.mpr active)] at kept
          dsimp only
          omega

/-- The database after a rollback of the session's transaction. -/
def rolledBack (db : Database) (session : Session) : Database :=
  (finalState (executeSession [.rollback]) { db with session }).toDatabase

/-- The next turn of the connection ends it by `Terminate` or at the end of its
input, with a transaction the client has begun still open. -/
def EndsOpen (db : Database) (peer : Peer) : Prop :=
  ∃ s, loopTurn around (peer.on db) = .ok false s ∧
    s.conn.session.transaction.active = true ∧ s.conn.session.autoCommit = false

/-- The end of a connection leaves no trace of its transaction: the rows and the
keys are those a rollback would have left, and the counter is the number of
transactions open in the other connections. -/
structure LeavesNoTrace (session : Session)
    (before after : Interleaving.Configuration ι Database (Option Peer) Unit) : Prop where
  rows : ∀ table rowId,
    after.shared.storage.get table rowId = (rolledBack before.shared session).storage.get table rowId
  keys : ∀ table index values, after.shared.indexes.lookup table index values =
    (rolledBack before.shared session).indexes.lookup table index values
  counter : Counted InTransaction after.threads after.shared.activeWriteTxns

/-- The connections of a server that has just started: none has begun a transaction. -/
def NewSessions (config : Interleaving.Configuration ι Database (Option Peer) Unit) : Prop :=
  ∀ i peer, config.threads i = some peer → peer.conn.session = .new

omit [DecidableEq ι] [Runtime] in
theorem NewSessions.counter {config : Interleaving.Configuration ι Database (Option Peer) Unit}
    (sessions : NewSessions config) : Counter config where
  proper i peer held := by
    rw [sessions i peer held]
    rfl
  counted := by
    refine ⟨0, ⟨∅, rfl, fun i => ?_⟩, Nat.zero_le _⟩
    refine iff_of_false (Finset.notMem_empty i) fun inside => ?_
    cases held : config.threads i with
    | none =>
        rw [held] at inside
        exact inside
    | some peer =>
        rw [held] at inside
        have active : peer.conn.session.transaction.active = true := inside
        rw [sessions i peer held] at active
        cases active

/-- **A connection that ends with its transaction open always leaves a trace.** In
every run of the connections of a server, after a connection has ended by
`Terminate` or at the end of its input inside a transaction it began, the counter
is above the number of transactions still open. -/
theorem dropped_transaction_leaves_trace
    {config : Interleaving.Configuration ι Database (Option Peer) Unit} (start : NewSessions config)
    (schedule : List ι) (i : ι) (peer : Peer)
    (serving : (run (connectionTurn around) config schedule).threads i = some peer)
    (ends : EndsOpen around (run (connectionTurn around) config schedule).shared peer) :
    ¬LeavesNoTrace peer.conn.session (run (connectionTurn around) config schedule)
      (run (connectionTurn around) config (schedule ++ [i])) := by
  intro noTrace
  obtain ⟨s, ended, active, -⟩ := ends
  have counter : Counter (run (connectionTurn around) config schedule) :=
    run_invariant _ Counter (fun _ i counter => counter.advance around i) start.counter schedule
  obtain ⟨proper, count, counted, notBehind⟩ := counter
  obtain ⟨-, kept⟩ := (counts_loopTurn around).of_ok ended (proper i peer serving)
  have after : run (connectionTurn around) config (schedule ++ [i]) =
      { run (connectionTurn around) config schedule with
        shared := s.db
        threads := Function.update (run (connectionTurn around) config schedule).threads i none } := by
    rw [run_append]
    change advance _ _ _ = _
    unfold advance
    rw [serving]
    simp only [connectionTurn, ended, List.map_nil, List.append_nil]
  have stillCounted : Counted InTransaction
      (Function.update (run (connectionTurn around) config schedule).threads i none)
      s.db.activeWriteTxns := by
    have counted := noTrace.counter
    rw [after] at counted
    exact counted
  dsimp only [Peer.on] at kept
  unfold Session.weight at kept
  rw [if_pos active] at kept
  by_cases inside : peer.conn.session.transaction.active = true
  · have left : Counted InTransaction
        (Function.update (run (connectionTurn around) config schedule).threads i none) (count - 1) :=
      counted.leave (by rw [serving]; exact inside) id
    have positive := counted.pos (i := i) (by rw [serving]; exact inside)
    have same := stillCounted.unique left
    rw [if_pos inside] at kept
    omega
  · have left : Counted InTransaction
        (Function.update (run (connectionTurn around) config schedule).threads i none) count := by
      apply counted.same
      rw [serving]
      exact iff_of_false id inside
    have same := stillCounted.unique left
    rw [if_neg inside] at kept
    omega

end Endings

section Example

/-- Surroundings that parse three texts. -/
def threeTexts : Surroundings :=
  { onePassword with
    parseSql := fun sql =>
      if sql = "CREATE TABLE t (id INT PRIMARY KEY)" then .ok [createT]
      else if sql = "BEGIN" then .ok [.startTransaction]
      else if sql = "INSERT INTO t VALUES (1)" then .ok [insertT [1]]
      else .error (.error (.parse sql)) }

/-- A `Query` message. -/
def queryMessage (sql : String) : List UInt8 :=
  'Q'.toUInt8 :: toBeBytes 4 ((utf8Bytes sql).length + 5) ++ utf8Bytes sql ++ [0]

/-- A client that inserts a row in a transaction and goes away. -/
def goesAway : Interleaving.Configuration Unit Database (Option Peer) Unit where
  shared := Executor.fresh.toDatabase
  threads _ := some {
    input := queryMessage "CREATE TABLE t (id INT PRIMARY KEY)" ++ queryMessage "BEGIN" ++
      queryMessage "INSERT INTO t VALUES (1)"
    outages := []
    conn := .new
    trace := [] }
  history := []

/-- After so many turns. -/
def goesAwayAfter (turns : Nat) : Interleaving.Configuration Unit Database (Option Peer) Unit :=
  run (@connectionTurn Runtime.reference threeTexts) goesAway (List.replicate turns ())

/-- Whether the next turn ends the connection inside a transaction it began. -/
def endsOpen (db : Database) (peer : Peer) : Bool :=
  match @loopTurn Runtime.reference threeTexts (peer.on db) with
  | .ok false s => s.conn.session.transaction.active && !s.conn.session.autoCommit
  | _ => false

theorem endsOpen_iff {db : Database} {peer : Peer} :
    endsOpen db peer = true ↔ @EndsOpen Runtime.reference threeTexts db peer := by
  unfold endsOpen EndsOpen
  cases @loopTurn Runtime.reference threeTexts (peer.on db) with
  | ok goesOn s => cases goesOn <;> simp
  | error e s => simp

theorem goesAway_ends : ∃ peer, (goesAwayAfter 3).threads () = some peer ∧
    @EndsOpen Runtime.reference threeTexts (goesAwayAfter 3).shared peer ∧
    (goesAwayAfter 4).shared.storage.get "t" 1 ≠
      (@rolledBack Runtime.reference (goesAwayAfter 3).shared peer.conn.session).storage.get "t" 1 := by
  have checked : ((goesAwayAfter 3).threads ()).any (fun peer =>
      endsOpen (goesAwayAfter 3).shared peer && decide ((goesAwayAfter 4).shared.storage.get "t" 1 ≠
        (@rolledBack Runtime.reference (goesAwayAfter 3).shared
          peer.conn.session).storage.get "t" 1)) = true := by decide +kernel
  obtain ⟨peer, serving, holds⟩ := (Option.any_eq_true ..).mp checked
  obtain ⟨ends, rows⟩ := Bool.and_eq_true_iff.mp holds
  exact ⟨peer, serving, endsOpen_iff.mp ends, of_decide_eq_true rows⟩

/-- The row stays, and nobody can take it back. -/
theorem dropped_insert_stays : ∃ peer, (goesAwayAfter 3).threads () = some peer ∧
    @EndsOpen Runtime.reference threeTexts (goesAwayAfter 3).shared peer ∧
    ¬@LeavesNoTrace _ Runtime.reference peer.conn.session (goesAwayAfter 3) (goesAwayAfter 4) := by
  obtain ⟨peer, serving, ends, rows⟩ := goesAway_ends
  refine ⟨peer, serving, ends, fun noTrace => rows ?_⟩
  exact @LeavesNoTrace.rows _ Runtime.reference _ _ _ noTrace "t" 1

/-- The counter stays above the number of open transactions. -/
theorem dropped_transaction_leaves_trace_insert :
    ∃ peer, (goesAwayAfter 3).threads () = some peer ∧
      ¬@LeavesNoTrace _ Runtime.reference peer.conn.session (goesAwayAfter 3) (goesAwayAfter 4) := by
  obtain ⟨peer, serving, ends, -⟩ := goesAway_ends
  refine ⟨peer, serving, ?_⟩
  have start : NewSessions goesAway := by
    intro i peer held
    cases held
    rfl
  exact @dropped_transaction_leaves_trace _ _ Runtime.reference threeTexts _ start
    (List.replicate 3 ()) () peer serving ends

end Example

end MoodengSQL
