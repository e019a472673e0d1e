import MoodengSQL.Recovery.Shutdown
import MoodengSQL.Server.Disconnect
import MoodengSQL.Server.Stages

/-!
# The accept loop and its connections

The server as a process. `run_serve` accepts connections while a semaphore has
permits, and spawns a task for each; when it is told to stop it waits for the gauge of
active connections, takes a last checkpoint and returns. The tasks are polled in any
order, each with its permit from the start and with the guard of the gauge from its
first poll on, and drop the guard before the permit.
-/

namespace MoodengSQL

open Foundation Effect ConnM Std

section Sessions

variable [Runtime] (around : Surroundings) (server : Server) (nonce : List UInt8)

/-- `handle_connection` up to the message loop: whether the loop is entered. -/
def enterSession : ConnM Bool := do
  let encrypted ← negotiateStream server.tls server.tlsAcceptor
  emit (.entered encrypted)
  let len := asUsize (← readI32)
  let buf ← readBody len
  let _ ← lift (getI32 buf)
  if server.auth.required && !encrypted && server.auth.requireTlsForPassword &&
      !server.auth.scramAvailable then
    sendError "password authentication requires TLS"
    return false
  else
    if ← admitClient around server.auth nonce then
      welcome
      return true
    else return false

/-- A connection is what comes before the message loop, and the loop. -/
theorem handleConnection_eq : handleConnection around server nonce = (do
    if ← enterSession around server nonce then
      let s ← get
      messageLoop around (s.input.length + 1)) := by
  unfold handleConnection runSession enterSession
  simp only [bind_assoc]
  congr 1; funext encrypted
  congr 1; funext _
  congr 1; funext len
  congr 1; funext buf
  congr 1; funext version
  split
  · simp only [bind_assoc, pure_bind, Bool.false_eq_true, if_false]
    exact (bind_pure_unit).symm
  · simp only [bind_assoc]
    congr 1; funext admitted
    cases admitted with
    | true => simp only [if_true, bind_assoc, pure_bind]
    | false => simp only [Bool.false_eq_true, if_false, pure_bind]

end Sessions

/-- `Semaphore`: the permits that are left, and whether it is closed. -/
structure Semaphore where
  available : Nat
  isClosed : Bool
  deriving DecidableEq

/-- `TryAcquireError`. -/
inductive TryAcquireError where
  | closed
  | noPermits
  deriving DecidableEq

namespace Semaphore

/-- `try_acquire_owned`. -/
def tryAcquireOwned (limit : Semaphore) : Except TryAcquireError Semaphore :=
  if limit.isClosed then .error .closed
  else if limit.available = 0 then .error .noPermits
  else .ok { limit with available := limit.available - 1 }

/-- A permit is dropped. -/
def release (limit : Semaphore) : Semaphore := { limit with available := limit.available + 1 }

/-- `close`. -/
def close (limit : Semaphore) : Semaphore := { limit with isClosed := true }

end Semaphore

/-- The gauge and the counters of connections in `ServerMetrics`, atomic and wrapping. -/
structure ServerMetrics where
  connectionsActive : UInt64
  connectionsAccepted : UInt64
  connectionsRejected : UInt64
  deriving DecidableEq

namespace ServerMetrics

/-- `ServerMetrics::new`. -/
def new : ServerMetrics :=
  { connectionsActive := 0, connectionsAccepted := 0, connectionsRejected := 0 }

/-- `connection_accepted`. -/
def connectionAccepted (metrics : ServerMetrics) : ServerMetrics :=
  { metrics with connectionsAccepted := metrics.connectionsAccepted + 1 }

/-- `connection_rejected`. -/
def connectionRejected (metrics : ServerMetrics) : ServerMetrics :=
  { metrics with connectionsRejected := metrics.connectionsRejected + 1 }

/-- `connection_opened`. -/
def connectionOpened (metrics : ServerMetrics) : ServerMetrics :=
  { metrics with connectionsActive := metrics.connectionsActive + 1 }

/-- `connection_closed`. -/
def connectionClosed (metrics : ServerMetrics) : ServerMetrics :=
  { metrics with connectionsActive := metrics.connectionsActive - 1 }

end ServerMetrics

/-- Where the task of a connection is: spawned and not polled yet, behind the creation
of its guard, in the message loop, behind the return of `handle_connection`, and after
the drop of the guard and of the permit. -/
inductive ConnectionTask where
  | spawned (client : Peer) (nonce : List UInt8)
  | guarded (client : Peer) (nonce : List UInt8)
  | serving (client : Peer)
  | returned
  | unguarded
  | ended

namespace ConnectionTask

/-- The task has its permit. -/
def holdsPermit : ConnectionTask → Bool
  | .ended => false
  | _ => true

/-- The task counts as an active connection. -/
def holdsGuard : ConnectionTask → Bool
  | .guarded .. => true
  | .serving _ => true
  | .returned => true
  | _ => false

/-- The task has not been polled. -/
def isSpawned : ConnectionTask → Bool
  | .spawned .. => true
  | _ => false

end ConnectionTask

/-- Where `run_serve` is: in the accept loop, in `drain_connections`, before the last
checkpoint, behind it, and gone with all tasks. -/
inductive ServePhase where
  | accepting
  | draining
  | checkpointing
  | returning
  | exited
  deriving DecidableEq

/-- The server: `run_serve`, the tasks it has spawned, and what they share. -/
structure Serving where
  phase : ServePhase
  limit : Semaphore
  metrics : ServerMetrics
  db : Database
  tasks : List ConnectionTask

/-- What happens next: a client connects, with the bytes it will send, the outages of
its connection and the nonce it may be given; `accept` fails; the signal to shut down
arrives; `drain_connections` looks at the gauge, before or after its deadline; the last
checkpoint is taken; the process exits; or a task is polled. -/
inductive ServeEvent where
  | connect (input : List UInt8) (outages : List Bool) (nonce : List UInt8)
  | acceptFails
  | shutdownSignal
  | drainTurn (expired : Bool)
  | checkpoint
  | exit
  | poll (i : Nat)

namespace Serving

variable [Runtime] (around : Surroundings) (server : Server)

/-- `run_serve` at the start of its accept loop. -/
def start (maxConnections : Nat) (db : Database) : Serving where
  phase := .accepting
  limit := { available := maxConnections, isClosed := false }
  metrics := .new
  db
  tasks := []

/-- The accept branch of the loop. -/
def accept (serving : Serving) (client : Peer) (nonce : List UInt8) : Serving :=
  match serving.limit.tryAcquireOwned with
  | .ok limit => { serving with
      limit
      metrics := serving.metrics.connectionAccepted
      tasks := serving.tasks ++ [.spawned client nonce] }
  | .error .noPermits => { serving with metrics := serving.metrics.connectionRejected }
  | .error .closed => { serving with phase := .draining }

/-- The handler of a connection has come this far: it goes on in the message loop, or has
returned. If it fails or panics, the task ends like that too. -/
def handled (serving : Serving) (i : Nat) : EStateM.Result ServerFailure ConnState Bool → Serving
  | .ok true s => { serving with db := s.db, tasks := serving.tasks.set i (.serving s.peer) }
  | .ok false s => { serving with db := s.db, tasks := serving.tasks.set i .returned }
  | .error _ s => { serving with db := s.db, tasks := serving.tasks.set i .returned }

/-- The task of a connection is polled. -/
def poll (serving : Serving) (i : Nat) : Serving :=
  match serving.tasks[i]? with
  | some (.spawned client nonce) => { serving with
      metrics := serving.metrics.connectionOpened
      tasks := serving.tasks.set i (.guarded client nonce) }
  | some (.guarded client nonce) =>
      serving.handled i (enterSession around server nonce (client.on serving.db))
  | some (.serving client) => serving.handled i (loopTurn around (client.on serving.db))
  | some .returned => { serving with
      metrics := serving.metrics.connectionClosed, tasks := serving.tasks.set i .unguarded }
  | some .unguarded => { serving with
      limit := serving.limit.release, tasks := serving.tasks.set i .ended }
  | some .ended => serving
  | none => serving

/-- `Database::checkpoint`. -/
def checkpointed (db : Database) : Database :=
  (finalState checkpointDatabase { db with session := .new }).toDatabase

/-- One event of the process. What the phase does not wait for does not happen. -/
def step (serving : Serving) : ServeEvent → Serving
  | .connect input outages nonce =>
      if serving.phase = .accepting then
        serving.accept { input, outages, conn := .new, trace := [] } nonce
      else serving
  | .acceptFails =>
      if serving.phase = .accepting then { serving with phase := .exited } else serving
  | .shutdownSignal =>
      if serving.phase = .accepting then
        { serving with phase := .draining, limit := serving.limit.close }
      else serving
  | .drainTurn expired =>
      if serving.phase = .draining ∧ (serving.metrics.connectionsActive = 0 ∨ expired = true) then
        { serving with phase := .checkpointing }
      else serving
  | .checkpoint =>
      if serving.phase = .checkpointing then
        { serving with phase := .returning, db := checkpointed serving.db }
      else serving
  | .exit => if serving.phase = .returning then { serving with phase := .exited } else serving
  | .poll i => if serving.phase = .exited then serving else serving.poll around server i

/-- The process after the events. -/
def run (serving : Serving) (events : List ServeEvent) : Serving :=
  events.foldl (step around server) serving

end Serving

section Counting

variable {serving : Serving} {maxConnections : Nat}

/-- What a task counts for. -/
def ConnectionTask.weight (counts : ConnectionTask → Bool) (task : ConnectionTask) : Nat :=
  if counts task then 1 else 0

/-- Replacing a task trades what it counts for. -/
theorem countP_set_add {tasks : List ConnectionTask} {i : Nat} {task : ConnectionTask}
    (found : tasks[i]? = some task) (counts : ConnectionTask → Bool) (next : ConnectionTask) :
    (tasks.set i next).countP counts + task.weight counts =
      tasks.countP counts + next.weight counts := by
  obtain ⟨bound, rfl⟩ := List.getElem?_eq_some_iff.mp found
  have present : tasks[i].weight counts ≤ tasks.countP counts := by
    unfold ConnectionTask.weight
    split
    · exact List.countP_pos_iff.mpr ⟨tasks[i], List.getElem_mem bound, ‹_›⟩
    · exact Nat.zero_le _
  rw [List.countP_set bound]
  unfold ConnectionTask.weight at present ⊢
  omega

/-- The permits, the gauge and the counter of accepted connections are those of the
tasks, and the semaphore is open while connections are accepted. -/
structure Accounts (maxConnections : Nat) (serving : Serving) : Prop where
  permits : serving.limit.available + serving.tasks.countP ConnectionTask.holdsPermit =
    maxConnections
  gauge : serving.metrics.connectionsActive =
    UInt64.ofNat (serving.tasks.countP ConnectionTask.holdsGuard)
  accepted : serving.metrics.connectionsAccepted = UInt64.ofNat serving.tasks.length
  unlocked : serving.phase = .accepting → serving.limit.isClosed = false

/-- A task with a guard has a permit. -/
theorem guards_le_permits (tasks : List ConnectionTask) :
    tasks.countP ConnectionTask.holdsGuard ≤ tasks.countP ConnectionTask.holdsPermit := by
  refine List.countP_mono_left fun task _ guarded => ?_
  cases task with
  | ended => cases guarded
  | _ => rfl

theorem Accounts.guards_le (accounts : Accounts maxConnections serving) :
    serving.tasks.countP ConnectionTask.holdsGuard ≤ maxConnections := by
  have held := guards_le_permits serving.tasks
  have permits := accounts.permits
  omega

/-- The gauge is the number of guards, and reads zero when there are none. -/
theorem Accounts.gauge_eq (accounts : Accounts maxConnections serving)
    (fits : maxConnections < 2 ^ 64) : serving.metrics.connectionsActive.toNat =
      serving.tasks.countP ConnectionTask.holdsGuard := by
  rw [accounts.gauge, UInt64.toNat_ofNat']
  exact Nat.mod_eq_of_lt (accounts.guards_le.trans_lt fits)

theorem Accounts.start (maxConnections : Nat) (db : Database) :
    Accounts maxConnections (.start maxConnections db) := ⟨rfl, rfl, rfl, fun _ => rfl⟩

theorem Accounts.accept (accounts : Accounts maxConnections serving) (client : Peer)
    (nonce : List UInt8) : Accounts maxConnections (serving.accept client nonce) := by
  obtain ⟨permits, gauge, accepted, unlocked⟩ := accounts
  unfold Serving.accept Semaphore.tryAcquireOwned
  split
  · rename_i limit acquired
    split at acquired
    · cases acquired
    · split at acquired
      · cases acquired
      · cases acquired
        refine ⟨?_, ?_, ?_, unlocked⟩
        · simp only [List.countP_append, List.countP_singleton, ConnectionTask.holdsPermit, if_true]
          omega
        · simpa [ServerMetrics.connectionAccepted, List.countP_append,
            ConnectionTask.holdsGuard] using gauge
        · simp [ServerMetrics.connectionAccepted, accepted, UInt64.ofNat_add]
  · exact ⟨permits, gauge, accepted, unlocked⟩
  · exact ⟨permits, gauge, accepted, fun accepting => by cases accepting⟩

/-- A task goes on to another with the same permit and guard. -/
theorem Accounts.goesOn (accounts : Accounts maxConnections serving) {i : Nat}
    {task : ConnectionTask} (found : serving.tasks[i]? = some task) (next : ConnectionTask)
    (permit : next.holdsPermit = task.holdsPermit) (guarded : next.holdsGuard = task.holdsGuard)
    (db : Database) :
    Accounts maxConnections { serving with db, tasks := serving.tasks.set i next } := by
  have permits := countP_set_add found ConnectionTask.holdsPermit next
  have guards := countP_set_add found ConnectionTask.holdsGuard next
  unfold ConnectionTask.weight at permits guards
  rw [permit] at permits
  rw [guarded] at guards
  refine ⟨?_, ?_, ?_, accounts.unlocked⟩
  · exact (Nat.add_right_cancel permits) ▸ accounts.permits
  · exact (Nat.add_right_cancel guards) ▸ accounts.gauge
  · dsimp only
    rw [List.length_set]
    exact accounts.accepted

/-- A handler that has begun holds permit and guard until it returns. -/
theorem Accounts.handled (accounts : Accounts maxConnections serving) {i : Nat}
    {task : ConnectionTask} (found : serving.tasks[i]? = some task)
    (permit : task.holdsPermit = true) (guarded : task.holdsGuard = true)
    (outcome : EStateM.Result ServerFailure ConnState Bool) :
    Accounts maxConnections (serving.handled i outcome) := by
  cases outcome with
  | ok goesOn s =>
      cases goesOn with
      | true => exact accounts.goesOn found (.serving s.peer) permit.symm guarded.symm s.db
      | false => exact accounts.goesOn found .returned permit.symm guarded.symm s.db
  | error e s => exact accounts.goesOn found .returned permit.symm guarded.symm s.db

variable [Runtime] (around : Surroundings) (server : Server)

/-- A poll keeps the accounts: the guard comes and goes with the gauge, and the permit
goes back last. -/
theorem Accounts.poll (accounts : Accounts maxConnections serving) (i : Nat) :
    Accounts maxConnections (serving.poll around server i) := by
  obtain ⟨total, gauge, accepted, unlocked⟩ := id accounts
  unfold Serving.poll
  cases found : serving.tasks[i]? with
  | none => exact accounts
  | some task =>
      have permits := fun next => countP_set_add found ConnectionTask.holdsPermit next
      have guards := fun next => countP_set_add found ConnectionTask.holdsGuard next
      cases task with
      | spawned client nonce =>
          have opened := guards (.guarded client nonce)
          refine ⟨?_, ?_, ?_, unlocked⟩
          · exact (Nat.add_right_cancel (permits (.guarded client nonce))) ▸ total
          · dsimp only [ServerMetrics.connectionOpened]
            rw [show (serving.tasks.set i (.guarded client nonce)).countP
              ConnectionTask.holdsGuard = _ + 1 from opened, UInt64.ofNat_add, ← gauge]
            rfl
          · dsimp only [ServerMetrics.connectionOpened]
            rw [List.length_set]
            exact accepted
      | guarded client nonce => exact accounts.handled found rfl rfl _
      | serving client => exact accounts.handled found rfl rfl _
      | returned =>
          have closed := guards .unguarded
          refine ⟨?_, ?_, ?_, unlocked⟩
          · exact (Nat.add_right_cancel (permits .unguarded)) ▸ total
          · dsimp only [ServerMetrics.connectionClosed]
            rw [gauge, show serving.tasks.countP ConnectionTask.holdsGuard = _ + 1 from
              closed.symm, UInt64.ofNat_add]
            exact UInt64.add_sub_cancel _ _
          · dsimp only [ServerMetrics.connectionClosed]
            rw [List.length_set]
            exact accepted
      | unguarded =>
          refine ⟨?_, ?_, ?_, unlocked⟩
          · have left : _ + 1 = serving.tasks.countP ConnectionTask.holdsPermit := permits .ended
            dsimp only [Semaphore.release]
            omega
          · exact (Nat.add_right_cancel (guards .ended)) ▸ gauge
          · dsimp only
            rw [List.length_set]
            exact accepted
      | ended => exact accounts

/-- Every event keeps the accounts. -/
theorem Accounts.step (accounts : Accounts maxConnections serving) (event : ServeEvent) :
    Accounts maxConnections (serving.step around server event) := by
  obtain ⟨permits, gauge, accepted, unlocked⟩ := id accounts
  cases event with
  | connect input outages nonce =>
      unfold Serving.step
      dsimp only
      split
      · exact accounts.accept _ nonce
      · exact accounts
  | poll i =>
      unfold Serving.step
      dsimp only
      split
      · exact accounts
      · exact accounts.poll around server i
  | _ =>
      unfold Serving.step
      dsimp only
      split
      · exact ⟨permits, gauge, accepted, fun accepting => by cases accepting⟩
      · exact accounts

theorem Accounts.run (accounts : Accounts maxConnections serving) (events : List ServeEvent) :
    Accounts maxConnections (serving.run around server events) := by
  induction events generalizing serving with
  | nil => exact accounts
  | cons event rest ih => exact ih (accounts.step around server event)

omit [Runtime] in
/-- While connections are accepted, a new one gets a task exactly when a permit is left,
and is counted as rejected otherwise. -/
theorem Accounts.accept_eq (accounts : Accounts maxConnections serving)
    (accepting : serving.phase = .accepting) (client : Peer) (nonce : List UInt8) :
    (serving.accept client nonce).tasks = serving.tasks ++
        (if serving.tasks.countP ConnectionTask.holdsPermit < maxConnections then
          [.spawned client nonce] else []) ∧
      (serving.accept client nonce).metrics.connectionsRejected =
        serving.metrics.connectionsRejected +
          (if serving.tasks.countP ConnectionTask.holdsPermit < maxConnections then 0 else 1) := by
  have permits := accounts.permits
  unfold Serving.accept Semaphore.tryAcquireOwned
  rw [accounts.unlocked accepting]
  by_cases full : serving.limit.available = 0
  · have refused : ¬serving.tasks.countP ConnectionTask.holdsPermit < maxConnections := by omega
    simp [full, refused, ServerMetrics.connectionRejected]
  · have free : serving.tasks.countP ConnectionTask.holdsPermit < maxConnections := by omega
    simp [full, free, ServerMetrics.connectionAccepted]

/-- **Connections are accounted for.** In every run of the server, whatever its clients
send and however their tasks are polled: the tasks that have not ended hold all the
permits that are gone; the gauge is the number of connections whose guard exists and
never wraps; and a new connection is rejected exactly when `max_connections` tasks hold
permits. -/
theorem connections_accounted (fits : maxConnections < 2 ^ 64) (db : Database)
    (events : List ServeEvent) :
    let serving := (Serving.start maxConnections db).run around server events
    serving.limit.available + serving.tasks.countP ConnectionTask.holdsPermit = maxConnections ∧
      serving.metrics.connectionsActive.toNat = serving.tasks.countP ConnectionTask.holdsGuard ∧
      serving.tasks.countP ConnectionTask.holdsGuard ≤
        serving.tasks.countP ConnectionTask.holdsPermit ∧
      serving.metrics.connectionsAccepted = UInt64.ofNat serving.tasks.length ∧
      (serving.phase = .accepting → ∀ client nonce,
        (serving.accept client nonce).tasks = serving.tasks ++
            (if serving.tasks.countP ConnectionTask.holdsPermit < maxConnections then
              [.spawned client nonce] else []) ∧
          (serving.accept client nonce).metrics.connectionsRejected =
            serving.metrics.connectionsRejected +
              (if serving.tasks.countP ConnectionTask.holdsPermit < maxConnections
                then 0 else 1)) := by
  have accounts := (Accounts.start maxConnections db).run around server events
  exact ⟨accounts.permits, accounts.gauge_eq fits, guards_le_permits _, accounts.accepted,
    fun accepting => accounts.accept_eq accepting⟩

end Counting

section Example

/-- A start-up message. -/
def startupMessage : List UInt8 :=
  toBeBytes 4 22 ++ toBeBytes 4 196608 ++ utf8Bytes "user\x00moodeng\x00" ++ [0]

/-- Surroundings that parse one more text. -/
def fourTexts : Surroundings :=
  { threeTexts with
    parseSql := fun sql =>
      if sql = "INSERT INTO t VALUES (2)" then .ok [insertT [2]] else threeTexts.parseSql sql }

/-- A client that creates a table and stores a row in it. -/
def storesFirst : List UInt8 :=
  startupMessage ++ queryMessage "CREATE TABLE t (id INT PRIMARY KEY)" ++
    queryMessage "INSERT INTO t VALUES (1)"

/-- A client that stores another row. -/
def storesSecond : List UInt8 := startupMessage ++ queryMessage "INSERT INTO t VALUES (2)"

/-- While the first connection is served the second one is rejected. -/
theorem connections_accounted_full :
    let serving := @Serving.run Runtime.reference fourTexts openServer
      (.start 1 Executor.fresh.toDatabase)
      [.connect storesFirst [] [], .poll 0, .connect storesSecond [] []]
    serving.metrics.connectionsActive.toNat = 1 ∧ serving.metrics.connectionsRejected = 1 := by
  intro serving
  obtain ⟨-, gauge, -, -, -⟩ := @connections_accounted 1 Runtime.reference fourTexts openServer
    (by decide) Executor.fresh.toDatabase
    [.connect storesFirst [] [], .poll 0, .connect storesSecond [] []]
  exact ⟨gauge, by decide +kernel⟩

end Example

end MoodengSQL
