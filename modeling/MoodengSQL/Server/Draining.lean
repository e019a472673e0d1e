import MoodengSQL.Foundation.Agreement
import MoodengSQL.Recovery.SchemaFile
import MoodengSQL.Server.Accepting

/-!
# Graceful shutdown

After the signal `run_serve` waits until the gauge of active connections reads zero or
the timeout elapses, takes a checkpoint and returns. The gauge does not count a
connection whose task has been spawned and not polled. Where no such task is left, a
gauge that reads zero means that no handler will touch the database again. The
database is opened with the default options, which hold the tables in memory.
-/

namespace MoodengSQL

open Foundation Effect ConnM Std

section Untouched

/-- The database stays as it is. -/
def SameDb (s s' : ConnState) : Prop := s'.db = s.db

instance : IsPreorder ConnState SameDb where
  refl _ := rfl
  trans _ _ _ first second := Eq.trans second first

theorem sameDb_takes (s : ConnState) (input : List UInt8) : SameDb s { s with input } := rfl

theorem sameDb_emit (event : ConnEvent) : Moves SameDb (emit event) := .write fun _ => rfl

theorem sameDb_modifyConn (f : ConnectionSession → ConnectionSession) :
    Moves SameDb (modifyConn f) := .write fun _ => rfl

theorem sameDb_writeAll : Moves SameDb writeAll := by
  intro s
  obtain ⟨input, outages, conn, db, trace⟩ := s
  rcases outages with _ | ⟨_ | _, rest⟩ <;> rfl

theorem sameDb_sendMessage (tag : Char) (body : List UInt8) :
    Moves SameDb (sendMessage tag body) :=
  .seq (sameDb_emit _) fun _ => moves_writes sameDb_writeAll

theorem sameDb_readI32 : Moves SameDb readI32 := moves_readI32 sameDb_takes

theorem sameDb_negotiateStream (tls : TlsSettings) (acceptor : Option TlsAcceptor) :
    Moves SameDb (negotiateStream tls acceptor) := by
  unfold negotiateStream
  have answers (byte : Char) : Moves SameDb (writeU8 byte) :=
    .seq (sameDb_emit _) fun _ => sameDb_writeAll
  refine .seq sameDb_readI32 fun len => ?_
  dsimp only
  split
  · refine .seq sameDb_readI32 fun code => ?_
    split
    · cases acceptor with
      | some accept =>
          refine .seq (answers _) fun _ => .seq (fun s => ?_) fun _ => .ret _
          unfold finalState acceptTls
          cases accept s.input <;> rfl
      | none =>
          refine .seq (answers _) fun _ => .seq sameDb_readI32 fun startupLen => ?_
          refine .seq (moves_readBody sameDb_takes _) fun startupBody => ?_
          exact .seq (.write fun _ => rfl) fun _ => .ret _
    · exact .fail _
  · split
    · exact .seq (sameDb_sendMessage _ _) fun _ => .fail _
    · refine .seq (moves_readBody sameDb_takes _) fun startupBody => ?_
      exact .seq (.write fun _ => rfl) fun _ => .ret _

theorem sameDb_readSaslMessage : Moves SameDb readSaslMessage := by
  unfold readSaslMessage
  refine .seq (moves_readU8 sameDb_takes) fun msgType => ?_
  split
  · exact .fail _
  · refine .seq sameDb_readI32 fun msgLen => ?_
    refine .seq (moves_readBody sameDb_takes _) fun payload => ?_
    dsimp only
    split
    · exact .fail _
    · refine .seq (moves_lift _) fun read => ?_
      split
      · exact .ret _
      · split
        · exact .fail _
        · exact .ret _

variable (around : Surroundings) (auth : AuthConfig) (nonce : List UInt8)

theorem sameDb_authenticateCleartext : Moves SameDb (authenticateCleartext around auth) := by
  unfold authenticateCleartext
  refine .seq (sameDb_sendMessage _ _) fun _ => .seq (moves_readU8 sameDb_takes) fun msgType => ?_
  split
  · exact .seq (sameDb_sendMessage _ _) fun _ => .ret _
  · refine .seq sameDb_readI32 fun pwLen => ?_
    refine .seq (moves_readBody sameDb_takes _) fun pwBuf => .seq (sameDb_emit _) fun _ => ?_
    split
    · exact .seq (sameDb_sendMessage _ _) fun _ => .ret _
    · exact .ret _

theorem sameDb_authenticateScram : Moves SameDb (authenticateScram around auth nonce) := by
  unfold authenticateScram
  refine .seq (sameDb_sendMessage _ _) fun _ => .seq sameDb_readSaslMessage fun first => ?_
  dsimp only
  split
  · exact .seq (sameDb_sendMessage _ _) fun _ => .ret _
  · refine .seq (moves_lift _) fun clientFirst => .seq (moves_lift _) fun creds => ?_
    refine .seq (moves_lift _) fun started => .seq (sameDb_sendMessage _ _) fun _ => ?_
    refine .seq sameDb_readSaslMessage fun second => .seq (moves_lift _) fun clientFinal => ?_
    refine .seq (sameDb_emit _) fun _ => ?_
    split
    · exact .seq (sameDb_sendMessage _ _) fun _ => .ret _
    · exact .seq (sameDb_sendMessage _ _) fun _ => .ret _

theorem sameDb_admitClient : Moves SameDb (admitClient around auth nonce) := by
  unfold admitClient authenticate
  split
  · split
    · exact sameDb_authenticateScram around auth nonce
    · exact sameDb_authenticateCleartext around auth
  · exact .ret _

theorem sameDb_welcome : Moves SameDb welcome := by
  have parameters (entries : List (String × String)) : Moves SameDb (sendParameters entries) := by
    induction entries with
    | nil => exact .ret _
    | cons entry rest ih => exact .seq (sameDb_sendMessage _ _) fun _ => ih
  refine .seq (sameDb_sendMessage _ _) fun _ => .seq (parameters _) fun _ => ?_
  exact .seq (sameDb_sendMessage _ _) fun _ => sameDb_modifyConn _

/-- Nothing before the message loop touches the database. -/
theorem sameDb_enterSession (server : Server) :
    Moves SameDb (enterSession around server nonce) := by
  unfold enterSession
  refine .seq (sameDb_negotiateStream _ _) fun encrypted => .seq (sameDb_emit _) fun _ => ?_
  refine .seq sameDb_readI32 fun len => .seq (moves_readBody sameDb_takes _) fun buf => ?_
  refine .seq (moves_lift _) fun version => ?_
  split
  · exact .seq (sameDb_sendMessage _ _) fun _ => .ret _
  · refine .seq (sameDb_admitClient _ _ _) fun admitted => ?_
    split
    · exact .seq sameDb_welcome fun _ => .ret _
    · exact .ret _

end Untouched

section Saving

/-- The database can be saved, whatever session asks for it. -/
def Savable (db : Database) : Prop := Saveable { db with session := .new }

/-- If the first database can be saved, so can the second. -/
def KeepsSavable (s s' : ConnState) : Prop := Savable s.db → Savable s'.db

instance : IsPreorder ConnState KeepsSavable where
  refl _ := id
  trans _ _ _ first second := second ∘ first

variable [Runtime] (around : Surroundings)

theorem keepsSavable_executeSql (sql : String) : Moves KeepsSavable (executeSql around sql) := by
  intro s savable
  have saved : Saveable (finalState (executeText (around.parseSql sql))
      { s.db with session := s.conn.session }) :=
    @SessionCall.saveable_after _ ⟨{ s.db with session := s.conn.session }, around.parseSql sql⟩
      ⟨savable.defined, savable.files⟩
  unfold finalState at saved ⊢
  unfold executeSql
  dsimp only
  cases outcome : executeText (around.parseSql sql) { s.db with session := s.conn.session } with
  | ok result after =>
      rw [outcome] at saved
      exact ⟨saved.defined, saved.files⟩
  | error e after =>
      rw [outcome] at saved
      cases e <;> exact ⟨saved.defined, saved.files⟩

theorem serves_keepsSavable : Serves around KeepsSavable where
  message _ _ _ _ := id
  ready _ _ := id
  write s := by
    obtain ⟨input, outages, conn, db, trace⟩ := s
    rcases outages with _ | ⟨_ | _, rest⟩ <;> exact id
  flag _ _ := id
  keep _ _ _ := id
  execute := keepsSavable_executeSql around

theorem keepsSavable_loopTurn : Moves KeepsSavable (loopTurn around) := by
  refine .seq (moves_readMessage (fun _ _ => id) fun _ _ _ => id) fun next => ?_
  cases next with
  | none => exact .ret _
  | some message => exact (serves_keepsSavable around).handleMessage _ _

variable (server : Server) {serving : Serving}

omit [Runtime] in
theorem savable_handled {i : Nat} {m : ConnM Bool} {s : ConnState} (moves : Moves KeepsSavable m)
    (savable : Savable s.db) : Savable (serving.handled i (m s)).db := by
  cases ran : m s with
  | ok goesOn s' =>
      have kept := moves.of_ok ran savable
      cases goesOn <;> exact kept
  | error e s' => exact moves.of_error ran savable

theorem savable_step (savable : Savable serving.db) (event : ServeEvent) :
    Savable (serving.step around server event).db := by
  cases event with
  | connect input outages nonce =>
      unfold Serving.step Serving.accept
      dsimp only
      split
      · split <;> exact savable
      · exact savable
  | checkpoint =>
      unfold Serving.step
      dsimp only
      split
      · exact ⟨savable.defined, filesKnown_checkpoint savable.files⟩
      · exact savable
  | poll i =>
      unfold Serving.step
      dsimp only
      split
      · exact savable
      · unfold Serving.poll
        split
        · exact savable
        · refine savable_handled (fun s savable => ?_) savable
          rwa [show (finalState _ s).db = s.db from sameDb_enterSession around _ server s]
        · exact savable_handled (keepsSavable_loopTurn around) savable
        all_goals exact savable
  | _ =>
      unfold Serving.step
      dsimp only
      split <;> exact savable

end Saving

section Draining

variable [Runtime] (around : Surroundings) (server : Server) {serving : Serving}

/-- Every task is behind its handler. -/
def Quiet (serving : Serving) : Prop :=
  ∀ task ∈ serving.tasks, task = .unguarded ∨ task = .ended

omit [Runtime] in
/-- A gauge that reads zero leaves tasks that have not begun or are behind their handler. -/
theorem Accounts.quiet {maxConnections : Nat} (accounts : Accounts maxConnections serving)
    (fits : maxConnections < 2 ^ 64) (zero : serving.metrics.connectionsActive = 0)
    (polled : ∀ task ∈ serving.tasks, task.isSpawned = false) : Quiet serving := by
  have gauge := accounts.gauge_eq fits
  rw [zero] at gauge
  have none := List.countP_eq_zero.mp gauge.symm
  intro task member
  have unguarded := none task member
  have begun := polled task member
  cases task with
  | spawned => cases begun
  | guarded => exact absurd rfl unguarded
  | serving => exact absurd rfl unguarded
  | returned => exact absurd rfl unguarded
  | unguarded => exact .inl rfl
  | ended => exact .inr rfl

/-- The shutdown goes on with this database. -/
inductive Closing (db : Database) (serving : Serving) : Prop
  | before (phase : serving.phase = .draining ∨ serving.phase = .checkpointing)
      (same : serving.db = db)
  | behind (phase : serving.phase = .returning ∨ serving.phase = .exited)
      (saved : serving.db = Serving.checkpointed db)

/-- Polls of tasks behind their handlers change no database. -/
theorem Quiet.poll (quiet : Quiet serving) (i : Nat) :
    Quiet (serving.poll around server i) ∧ (serving.poll around server i).db = serving.db ∧
      (serving.poll around server i).phase = serving.phase := by
  unfold Serving.poll
  cases found : serving.tasks[i]? with
  | none => exact ⟨quiet, rfl, rfl⟩
  | some task =>
      rcases quiet task (List.mem_of_getElem? found) with rfl | rfl
      · refine ⟨fun task member => ?_, rfl, rfl⟩
        rcases List.mem_or_eq_of_mem_set member with kept | rfl
        · exact quiet task kept
        · exact .inr rfl
      · exact ⟨quiet, rfl, rfl⟩

/-- Nothing that happens to a quiet server on its way out changes what it saves. -/
theorem Quiet.step {db : Database} (quiet : Quiet serving) (closing : Closing db serving)
    (event : ServeEvent) :
    Quiet (serving.step around server event) ∧ Closing db (serving.step around server event) := by
  have notAccepting : serving.phase ≠ .accepting := by
    intro accepting
    rcases closing with ⟨phase | phase, -⟩ | ⟨phase | phase, -⟩ <;>
      cases phase.symm.trans accepting
  cases event with
  | connect input outages nonce =>
      unfold Serving.step
      dsimp only
      rw [if_neg notAccepting]
      exact ⟨quiet, closing⟩
  | acceptFails =>
      unfold Serving.step
      dsimp only
      rw [if_neg notAccepting]
      exact ⟨quiet, closing⟩
  | shutdownSignal =>
      unfold Serving.step
      dsimp only
      rw [if_neg notAccepting]
      exact ⟨quiet, closing⟩
  | drainTurn expired =>
      unfold Serving.step
      dsimp only
      split
      · rename_i drained
        cases closing with
        | before _ same => exact ⟨quiet, .before (.inr rfl) same⟩
        | behind phase => rcases phase with phase | phase <;> cases phase.symm.trans drained.1
      · exact ⟨quiet, closing⟩
  | checkpoint =>
      unfold Serving.step
      dsimp only
      split
      · rename_i due
        cases closing with
        | before _ same => exact ⟨quiet, .behind (.inl rfl) (congrArg Serving.checkpointed same)⟩
        | behind phase => rcases phase with phase | phase <;> cases phase.symm.trans due
      · exact ⟨quiet, closing⟩
  | exit =>
      unfold Serving.step
      dsimp only
      split
      · rename_i returning
        cases closing with
        | before phase => rcases phase with phase | phase <;> cases phase.symm.trans returning
        | behind _ saved => exact ⟨quiet, .behind (.inr rfl) saved⟩
      · exact ⟨quiet, closing⟩
  | poll i =>
      unfold Serving.step
      dsimp only
      split
      · exact ⟨quiet, closing⟩
      · obtain ⟨still, same, phase⟩ := quiet.poll around server i
        refine ⟨still, ?_⟩
        cases closing with
        | before early kept => exact .before (phase ▸ early) (same.trans kept)
        | behind late saved => exact .behind (phase ▸ late) (same.trans saved)

theorem Quiet.run {db : Database} (quiet : Quiet serving) (closing : Closing db serving)
    (events : List ServeEvent) : Closing db (serving.run around server events) := by
  induction events generalizing serving with
  | nil => exact closing
  | cons event rest ih =>
      obtain ⟨quiet, closing⟩ := quiet.step around server closing event
      exact ih quiet closing

/-- A checkpoint leaves files that open exactly when the rows differ in the keys of the
unique indexes, and that open with what was saved, if the names of the tables can be those
of files. -/
theorem Savable.checkpointed {db : Database} (savable : Savable db)
    (plain : db.storage.FileNames) :
    let files := ({ Serving.checkpointed db with session := .new } : Executor).disk
    ((∃ opened, Database.open files = .ok opened) ↔ UniqueKeys { db with session := .new }) ∧
      ∀ opened, Database.open files = .ok opened → opened.catalog = db.catalog ∧
        SameDefinitions db.indexes opened.indexes ∧
        opened.storage.contents = db.storage.contents := by
  intro files
  have taken : checkpointDatabase { db with session := .new } =
      .ok () { Serving.checkpointed db with session := .new } := checkpointDatabase_eq_ok.mpr rfl
  obtain ⟨log, catalog, recovered⟩ := Saveable.files_checkpoint savable plain taken
  have same : ∀ opened, Database.open files = .ok opened → opened.catalog = db.catalog ∧
      SameDefinitions db.indexes opened.indexes ∧
      opened.storage.contents = db.storage.contents := by
    intro opened opens
    obtain ⟨catalogs, contents, rebuilt⟩ :=
      open_ok (by rw [show files.walLog = [] from log]; exact .nil) opens
    obtain ⟨manager, rebuilt', definitions, -⟩ :=
      rebuildAll_spec (rebuildable_of_rebuildAll rebuilt)
    obtain rfl : manager = opened.indexes := Except.ok.inj (rebuilt'.symm.trans rebuilt)
    have kept : opened.catalog = db.catalog := catalogs.trans catalog
    refine ⟨kept, fun table name => ?_, contents.trans recovered⟩
    rw [definitions, kept, savable.defined.definitions]
  refine ⟨?_, same⟩
  rw [← Saveable.reopensSame_iff savable plain]
  constructor
  · rintro ⟨opened, opens⟩
    exact ⟨_, opened, taken, opens, same opened opens⟩
  · rintro ⟨s', opened, saved, opens, -⟩
    cases taken.symm.trans saved
    exact ⟨opened, opens⟩

/-- **A graceful shutdown saves what the connections left.** In every run of a server on
a database that was opened, whatever its clients send and however their tasks are polled:
if the gauge reads zero while `run_serve` drains, no task is yet to be polled for the
first time, and the names of the tables can be those of files, then whatever happens until
the process has exited, its files open with the tables, index definitions and rows of that
moment; and they open if and only if the rows differ in the keys of the unique indexes. -/
theorem graceful_shutdown_saves {maxConnections : Nat} (fits : maxConnections < 2 ^ 64)
    {disk : Disk} {db : Database} (opened : Database.open disk = .ok db)
    {events later : List ServeEvent} {drained stopped : Serving}
    (ran : (Serving.start maxConnections db).run around server events = drained)
    (draining : drained.phase = .draining) (zero : drained.metrics.connectionsActive = 0)
    (polled : ∀ task ∈ drained.tasks, task.isSpawned = false)
    (plain : drained.db.storage.FileNames)
    (left : drained.run around server later = stopped) (exited : stopped.phase = .exited) :
    let files := ({ stopped.db with session := .new } : Executor).disk
    ((∃ reopened, Database.open files = .ok reopened) ↔
        UniqueKeys { drained.db with session := .new }) ∧
      ∀ reopened, Database.open files = .ok reopened → reopened.catalog = drained.db.catalog ∧
        SameDefinitions drained.db.indexes reopened.indexes ∧
        reopened.storage.contents = drained.db.storage.contents := by
  have accounts := (Accounts.start maxConnections db).run around server events
  have runs : ∀ (events : List ServeEvent) (serving : Serving), Savable serving.db →
      Savable (serving.run around server events).db := by
    intro events
    induction events with
    | nil => exact fun _ => id
    | cons event rest ih =>
        exact fun serving savable => ih _ (savable_step around server savable event)
  have savable := runs events (.start maxConnections db) (saveable_open opened .new)
  rw [ran] at accounts savable
  have closing := (accounts.quiet fits zero polled).run around server
    (.before (.inl draining) rfl) later
  rw [left] at closing
  cases closing with
  | before phase => rcases phase with phase | phase <;> cases phase.symm.trans exited
  | behind _ saved =>
      have atFiles := savable.checkpointed plain
      rw [← saved] at atFiles
      exact atFiles

end Draining

section Example

/-- A connection from its start to its end, and after it a second one. -/
def twoConnections (secondPolls : Nat) : List ServeEvent :=
  .connect storesFirst [] [] :: .connect storesSecond [] [] :: List.replicate 8 (.poll 0) ++
    .connect storesSecond [] [] :: List.replicate secondPolls (.poll 1) ++ [.shutdownSignal]

/-- The server of these connections, which takes one at a time. -/
def servesTwo (secondPolls : Nat) : Serving :=
  @Serving.run Runtime.reference fourTexts openServer (.start 1 Executor.fresh.toDatabase)
    (twoConnections secondPolls)

/-- The same server on its way out. -/
def stopsAfter (secondPolls : Nat) (later : List ServeEvent) : Serving :=
  @Serving.run Runtime.reference fourTexts openServer (servesTwo secondPolls) later

/-- The files of a server that are opened again. -/
def reopens (serving : Serving) : Except Failure Database :=
  @Database.open Runtime.reference ({ serving.db with session := .new } : Executor).disk

/-- Both connections are served, and both rows are there when the files are opened. -/
theorem graceful_shutdown_saves_two :
    ∃ reopened, reopens (stopsAfter 6 [.drainTurn false, .checkpoint, .exit]) = .ok reopened ∧
      reopened.storage.contents = (servesTwo 6).db.storage.contents := by
  have draining : (servesTwo 6).phase = .draining := by decide +kernel
  have zero : (servesTwo 6).metrics.connectionsActive = 0 := by decide +kernel
  have polled : ∀ task ∈ (servesTwo 6).tasks, task.isSpawned = false := by decide +kernel
  have exited : (stopsAfter 6 [.drainTurn false, .checkpoint, .exit]).phase = .exited := by
    decide +kernel
  have opens : (reopens (stopsAfter 6 [.drainTurn false, .checkpoint, .exit])).toOption.isSome =
      true := by
    decide +kernel
  have named : ∀ name ∈ (servesTwo 6).db.storage.tables.keys, isFileName name = true := by
    decide +kernel
  obtain ⟨reopened, opened⟩ := Option.isSome_iff_exists.mp opens
  have opened := toOption_eq_some.mp opened
  obtain ⟨-, saved⟩ := @graceful_shutdown_saves Runtime.reference fourTexts openServer 1
    (by decide) Disk.fresh Executor.fresh.toDatabase rfl (twoConnections 6)
    [.drainTurn false, .checkpoint, .exit] (servesTwo 6)
    (stopsAfter 6 [.drainTurn false, .checkpoint, .exit]) rfl draining zero polled
    (fun name member => named name (ExtTreeMap.mem_keys.mpr member)) rfl exited
  exact ⟨reopened, opened, (saved reopened opened).2.2⟩

/-- A connection that has been accepted and is first polled behind the last checkpoint
stores a row that the files do not have, though the gauge had read zero. -/
theorem unpolled_connection_is_lost :
    (servesTwo 0).metrics.connectionsActive = 0 ∧
      ((stopsAfter 0 ([.drainTurn false, .checkpoint] ++ List.replicate 4 (.poll 1) ++
        [.exit])).db.storage.scan "t").length = 2 ∧
      (reopens (stopsAfter 0 ([.drainTurn false, .checkpoint] ++ List.replicate 4 (.poll 1) ++
        [.exit]))).toOption.map (fun reopened => (reopened.storage.scan "t").length) = some 1 := by
  decide +kernel

end Example

end MoodengSQL
