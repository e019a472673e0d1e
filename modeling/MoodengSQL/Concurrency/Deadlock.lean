import MoodengSQL.Concurrency.Backup

/-!
# Backups and writers that wait for each other

The backup waits for the counter of transactions with the lock taken, and a
transaction in the counter may still need the lock to write. Then neither goes
on. It happens exactly to transactions that have begun, and have a write to come,
when the backup takes the lock or waits with it.
-/

namespace MoodengSQL

open Foundation Foundation.Effect Interleaving

section Programs

/-- Whether a transaction begun by the client is open at the end of a program. -/
def pendingAtEnd (pending : Bool) (program : List Statement) : Bool :=
  program.foldl (fun pending stmt => stmt.pendingAfter pending) pending

/-- Whether a program writes before it ends the transaction it is in. -/
def writesBeforeEnd : List Statement → Bool
  | [] => false
  | .commit :: _ | .rollback :: _ => false
  | stmt :: rest => stmt.isWrite || writesBeforeEnd rest

theorem writesBeforeEnd_cons {stmt : Statement} {rest : List Statement}
    (still : ∀ pending, stmt.pendingAfter pending = pending) :
    writesBeforeEnd (stmt :: rest) = (stmt.isWrite || writesBeforeEnd rest) := by
  cases stmt with
  | commit => cases still true
  | rollback => cases still true
  | _ => rfl

theorem pendingAfter_of_isWrite {stmt : Statement} (writes : stmt.isWrite = true)
    (pending : Bool) : stmt.pendingAfter pending = pending := by
  cases stmt with
  | insert | update | delete => rfl
  | _ => cases writes

namespace Client

/-- Whether the client's transaction has a write to come for which it does not
have the lock yet. -/
def stillToWrite (client : SessionClient) : Bool :=
  match client.phase with
  | some (.wanting _) => true
  | _ => writesBeforeEnd client.program

/-- Whether a transaction begun by the client is in the counter and has a write
to come. -/
def caught (client : SessionClient) : Bool :=
  client.counted && client.pending && client.stillToWrite

end Client

variable {shared : LockedDatabase} {client : SessionClient}
  {turn : Turn LockedDatabase SessionClient BackupEvent}

omit shared client turn in
/-- Between statements a session with a transaction is in one the client has begun. -/
theorem Session.Fits.explicit {session : Session} {pending : Bool} {txnId : Nat}
    (fits : session.Fits pending) (running : session.transaction.txnId = some txnId) :
    session.transaction.active = true ∧ session.autoCommit = false := by
  cases pending with
  | true => exact ⟨fits.1, fits.2.2⟩
  | false =>
      cases (show session = .new from fits)
      cases running

/-- While a writer has the lock or waits for it, a transaction in the counter with
a write to come keeps both. -/
theorem SessionActs.stays_caught (acts : SessionActs shared client turn) (stands : client.Stands)
    (taken : shared.writer = true) (caught : client.caught = true) :
    turn.thread.caught = true := by
  unfold Client.Stands at stands
  simp only [Client.caught, Bool.and_eq_true] at caught ⊢
  obtain ⟨⟨counted, pending⟩, toWrite⟩ := caught
  cases acts with
  | waits => exact ⟨⟨counted, pending⟩, toWrite⟩
  | begins db session rest idle calls inactive =>
      simp only [Client.counted, idle, inactive, Bool.false_eq_true] at counted
  | counts db begun => simp only [Client.counted, begun, Bool.false_eq_true] at counted
  | commits db txnId rest idle calls =>
      simp only [Client.stillToWrite, idle, calls, writesBeforeEnd, Bool.false_eq_true] at toWrite
  | uncounts db committed => simp only [Client.pending, committed, Bool.false_eq_true] at pending
  | aborts db txnId records rest idle calls =>
      simp only [Client.stillToWrite, idle, calls, writesBeforeEnd, Bool.false_eq_true] at toWrite
  | undoes db txnId record records undoing =>
      simp only [Client.pending, undoing, Bool.false_eq_true] at pending
  | undone db txnId undoing => simp only [Client.pending, undoing, Bool.false_eq_true] at pending
  | runs db stmt rest idle calls still reads =>
      simp only [Client.counted, idle] at counted
      simp only [Client.pending, idle] at pending
      simp only [Client.stillToWrite, idle, calls, writesBeforeEnd_cons still, reads,
        Bool.false_or] at toWrite
      exact ⟨⟨counted, pending⟩, toWrite⟩
  | checks stmt loop rest idle =>
      simp only [Client.counted, idle] at counted
      simp only [Client.pending, idle] at pending
      exact ⟨⟨counted, pending⟩, rfl⟩
  | joins loop wanting free => exact Bool.noConfusion (free.symm.trans taken)
  | enters loop txnId entered running =>
      rw [entered] at stands
      simp only [Client.counted, entered] at counted
      simp only [Client.stillToWrite, entered] at toWrite
      refine ⟨⟨counted, ?_⟩, toWrite⟩
      simp only [Client.pending, (stands.explicit running).2, Bool.not_false]
  | opens loop txnId db session entered idle inactive =>
      simp only [Client.counted, entered, inactive, Bool.false_eq_true] at counted
  | tracks loop txnId db opened => simp only [Client.counted, opened, Bool.false_eq_true] at counted
  | writes txnId body rows count count' db session looping active running automatic =>
      simp only [Client.counted, looping] at counted
      simp only [Client.pending, looping] at pending
      simp only [Client.stillToWrite, looping] at toWrite
      exact ⟨⟨active.trans counted, (congrArg not automatic).trans pending⟩, toWrite⟩
  | closes txnId count db session looping automatic =>
      simp only [Client.pending, looping, automatic, Bool.not_true, Bool.false_eq_true] at pending
  | untracks db closed => simp only [Client.pending, closed, Bool.false_eq_true] at pending
  | ends txnId count looping explicit =>
      simp only [Client.counted, looping] at counted
      simp only [Client.stillToWrite, looping] at toWrite
      exact ⟨⟨counted, counted⟩, toWrite⟩
  | releases leaving =>
      simp only [Client.counted, leaving] at counted
      simp only [Client.stillToWrite, leaving] at toWrite
      exact ⟨⟨counted, counted⟩, toWrite⟩

/-- Turns keep what will be open at the end of the program. -/
theorem SessionActs.pendingAtEnd (acts : SessionActs shared client turn) (stands : client.Stands) :
    pendingAtEnd turn.thread.pending turn.thread.program =
      pendingAtEnd client.pending client.program := by
  unfold Client.Stands at stands
  cases acts with
  | waits => rfl
  | begins db session rest idle calls => rw [calls]; rfl
  | commits db txnId rest idle calls => rw [calls]; rfl
  | aborts db txnId records rest idle calls => rw [calls]; rfl
  | runs db stmt rest idle calls still =>
      rw [calls, MoodengSQL.pendingAtEnd, MoodengSQL.pendingAtEnd, List.foldl_cons, still]
      simp only [Client.pending, idle]
  | checks stmt loop rest idle calls writes =>
      rw [calls, MoodengSQL.pendingAtEnd, MoodengSQL.pendingAtEnd, List.foldl_cons,
        pendingAfter_of_isWrite writes]
      simp only [Client.pending, idle]
  | counts db begun =>
      rw [begun] at stands
      simp only [Client.pending, begun, stands.1]
  | uncounts db committed =>
      rw [committed] at stands
      simp only [Client.pending, committed, stands]
      rfl
  | undoes db txnId record records undoing => simp only [Client.pending, undoing]
  | undone db txnId undoing =>
      rw [undoing] at stands
      simp only [Client.pending, undoing, stands]
      rfl
  | joins loop wanting => simp only [Client.pending, wanting]
  | enters loop txnId entered running =>
      rw [entered] at stands
      obtain ⟨active, explicit⟩ := stands.explicit running
      simp only [Client.pending, entered, active, explicit, Bool.not_false]
  | opens loop txnId db session entered idle inactive =>
      simp only [Client.pending, entered, inactive]
  | tracks loop txnId db opened => simp only [Client.pending, opened, Bool.not_true]
  | writes txnId body rows count count' db session looping active running automatic =>
      simp only [Client.pending, looping, automatic]
  | closes txnId count db session looping automatic =>
      simp only [Client.pending, looping, automatic, Bool.not_true]
  | untracks db closed =>
      rw [closed] at stands
      simp only [Client.pending, closed, stands]
      rfl
  | ends txnId count looping explicit =>
      rw [looping] at stands
      simp only [Client.pending, looping, explicit, stands.1, Bool.not_false]
  | releases leaving => simp only [Client.pending, leaving]

/-- A transaction comes to be counted with a write to come only at the end of its
`BEGIN`. -/
theorem SessionActs.caught (acts : SessionActs shared client turn) (stands : client.Stands)
    (now : turn.thread.caught = true) :
    client.caught = true ∨
      (client.phase = some .begun ∧ writesBeforeEnd client.program = true) := by
  unfold Client.Stands at stands
  simp only [Client.caught, Bool.and_eq_true] at now ⊢
  obtain ⟨⟨counted, pending⟩, toWrite⟩ := now
  cases acts with
  | waits => exact .inl ⟨⟨counted, pending⟩, toWrite⟩
  | begins => cases counted
  | counts db begun => exact .inr ⟨begun, toWrite⟩
  | commits | aborts | undoes | closes => cases pending
  | uncounts db committed =>
      rw [committed] at stands
      simp only [Client.pending, stands] at pending
      cases pending
  | undone db txnId undoing =>
      rw [undoing] at stands
      simp only [Client.pending, stands] at pending
      cases pending
  | runs db stmt rest idle calls still =>
      refine .inl ⟨⟨?_, ?_⟩, ?_⟩
      · simpa only [Client.counted, idle] using counted
      · simpa only [Client.pending, idle] using pending
      · simp only [Client.stillToWrite, idle, calls]
        rw [writesBeforeEnd_cons still]
        exact Bool.or_eq_true_iff.mpr (.inr toWrite)
  | checks stmt loop rest idle calls writes =>
      refine .inl ⟨⟨?_, ?_⟩, ?_⟩
      · simpa only [Client.counted, idle] using counted
      · simpa only [Client.pending, idle] using pending
      · simp only [Client.stillToWrite, idle, calls]
        rw [writesBeforeEnd_cons (pendingAfter_of_isWrite writes), writes, Bool.true_or]
  | joins loop wanting =>
      refine .inl ⟨⟨?_, ?_⟩, ?_⟩
      · simpa only [Client.counted, wanting] using counted
      · simpa only [Client.pending, wanting] using pending
      · simp only [Client.stillToWrite, wanting]
  | enters loop txnId entered running =>
      rw [entered] at stands
      refine .inl ⟨⟨?_, ?_⟩, ?_⟩
      · simpa only [Client.counted, entered] using counted
      · simp only [Client.pending, entered, (stands.explicit running).1]
      · simpa only [Client.stillToWrite, entered] using toWrite
  | opens => cases counted
  | tracks => cases pending
  | writes txnId body rows count count' db session looping active running automatic =>
      refine .inl ⟨⟨?_, ?_⟩, ?_⟩
      · simpa only [Client.counted, looping, active] using counted
      · simpa only [Client.pending, looping, automatic] using pending
      · simpa only [Client.stillToWrite, looping] using toWrite
  | untracks db closed =>
      rw [closed] at stands
      simp only [Client.pending, stands] at pending
      cases pending
  | ends txnId count looping explicit =>
      refine .inl ⟨⟨?_, ?_⟩, ?_⟩
      · simpa only [Client.counted, looping] using counted
      · simp only [Client.pending, looping, explicit, Bool.not_false]
      · simpa only [Client.stillToWrite, looping] using toWrite
  | releases leaving =>
      refine .inl ⟨⟨?_, ?_⟩, ?_⟩
      · simpa only [Client.counted, leaving] using counted
      · simpa only [Client.pending, leaving] using pending
      · simpa only [Client.stillToWrite, leaving] using toWrite

end Programs

section Waiting

namespace Participant

/-- Nothing is left to do. -/
def finished : Participant → Bool
  | .session client => client.phase.isNone && client.program.isEmpty
  | .backup (.finished _) => true
  | .backup _ => false

/-- The next step is to wait: for a guard, for the guards to go, or for the counter. -/
def blocked (shared : LockedDatabase) : Participant → Bool
  | .session client => match client.phase with
    | some (.wanting _) => shared.writer
    | _ => false
  | .backup .waiting | .backup .waitingAgain => 0 < shared.db.activeWriteTxns
  | .backup .draining => 0 < shared.readers
  | .backup _ => false

/-- A transaction begun by the client is in the counter and has a write to come. -/
def caught : Participant → Bool
  | .session client => client.caught
  | .backup _ => false

/-- The next step is to enter a transaction with a write to come into the counter. -/
def entersToWrite : Participant → Bool
  | .session client => match client.phase with
    | some .begun => writesBeforeEnd client.program
    | _ => false
  | .backup _ => false

/-- The next step is the backup's call of `write`. -/
def locks : Participant → Bool
  | .backup .locking => true
  | .backup _ | .session _ => false

/-- The backup waits with the lock taken. -/
def catches : Participant → Bool
  | .backup .draining | .backup .waitingAgain => true
  | .backup _ | .session _ => false

end Participant

/-- Where there is nothing to do, and where there is something to wait for, a turn
changes nothing. -/
theorem backupSystemStep_waits [Runtime] {shared : LockedDatabase} {participant : Participant}
    (idle : participant.finished = true ∨ participant.blocked shared = true) :
    backupSystemStep shared participant = .wait shared participant := by
  cases participant with
  | backup place =>
      cases place with
      | locking | checkpointing | archiving => simp [Participant.finished, Participant.blocked] at idle
      | finished => rfl
      | waiting | draining | waitingAgain =>
          simp only [Participant.finished, Participant.blocked, Bool.false_eq_true, false_or,
            decide_eq_true_eq] at idle
          simp only [backupSystemStep, backupStep, idle, if_true, Turn.wait]
  | session client =>
      obtain ⟨session, phase, program⟩ := client
      cases phase with
      | none =>
          cases program with
          | nil => rfl
          | cons stmt rest => simp [Participant.finished, Participant.blocked] at idle
      | some phase =>
          cases phase with
          | wanting loop =>
              simp only [Participant.finished, Participant.blocked, Option.isNone_some,
                Bool.false_and, Bool.false_eq_true, false_or] at idle
              simp only [backupSystemStep, sessionStep, idle, if_true, Turn.wait]
          | begun | committed | undoing | entered | opened | looping | closed | leaving =>
              simp [Participant.finished, Participant.blocked] at idle

variable {ι : Type}

namespace BackupConfig

/-- Somebody has not finished, and nobody can go on. -/
def Stuck (config : BackupConfig ι) : Prop :=
  (∃ i, (config.threads i).finished = false) ∧
    ∀ i, (config.threads i).finished = true ∨ (config.threads i).blocked config.shared = true

instance [Fintype ι] (config : BackupConfig ι) : Decidable config.Stuck :=
  inferInstanceAs (Decidable ((∃ i, (config.threads i).finished = false) ∧
    ∀ i, (config.threads i).finished = true ∨ (config.threads i).blocked config.shared = true))

/-- The backup takes the lock when no transaction in the counter has a write to
come, and no transaction with a write to come enters the counter while the backup
waits with the lock. -/
def CatchesNoWriter (config : BackupConfig ι) (i : Option ι) : Prop :=
  ((config.threads i).locks = true → ∀ j, (config.threads j).caught = false) ∧
    ((config.threads i).entersToWrite = true → (config.threads none).catches = false)

instance [Fintype ι] (config : BackupConfig ι) (i : Option ι) :
    Decidable (config.CatchesNoWriter i) :=
  inferInstanceAs (Decidable
    (((config.threads i).locks = true → ∀ j, (config.threads j).caught = false) ∧
      ((config.threads i).entersToWrite = true → (config.threads none).catches = false)))

end BackupConfig

/-- The programs come to an end outside transactions, and while the backup waits
with the lock no transaction in the counter has a write to come. -/
structure BackupConfig.Goes (config : BackupConfig ι) (place : BackupPlace) : Prop
    extends config.Sound place where
  complete : ∀ i client, config.threads i = .session client →
    pendingAtEnd client.pending client.program = false
  free : (config.threads none).catches = true → ∀ i, (config.threads i).caught = false

variable {config : BackupConfig ι} {place : BackupPlace}

namespace BackupConfig.Goes

/-- A session whose transaction is in the counter has not finished. -/
theorem unfinished_of_counted (goes : config.Goes place) {i : Option ι}
    (counted : (config.threads i).counted = true) : (config.threads i).finished = false := by
  cases thread : config.threads i with
  | backup place =>
      rw [thread] at counted
      cases counted
  | session client =>
      rw [thread] at counted
      have ends := goes.complete i client thread
      obtain ⟨session, phase, program⟩ := client
      match phase, program with
      | some _, _ => rfl
      | none, _ :: _ => rfl
      | none, [] => exact Bool.noConfusion (ends.symm.trans counted)

omit config place in
/-- A session in the counter that waits for a guard has a write to come, and a
writer keeps it waiting. -/
theorem caught_of_blocked {shared : LockedDatabase} {client : SessionClient}
    (counted : client.counted = true)
    (blocked : (Participant.session client).blocked shared = true) :
    client.caught = true ∧ shared.writer = true := by
  obtain ⟨session, phase, program⟩ := client
  match phase with
  | some (.wanting _) =>
      refine ⟨?_, blocked⟩
      simp only [Client.caught, Client.counted, Client.pending, Client.stillToWrite] at counted ⊢
      rw [counted]
      rfl
  | none | some .begun | some .committed | some (.undoing _ _) | some (.entered _)
  | some (.opened _ _) | some (.looping _ _ _) | some .closed | some .leaving => cases blocked

omit config place in
/-- A session with the lock goes on. -/
theorem goes_on_of_holdsLock {shared : LockedDatabase} {participant : Participant}
    (holds : participant.holdsLock = true) :
    participant.finished = false ∧ participant.blocked shared = false := by
  cases participant with
  | backup place => cases holds
  | session client =>
      obtain ⟨session, phase, program⟩ := client
      match phase with
      | some (.entered _) | some (.opened _ _) | some (.looping _ _ _) | some .closed
      | some .leaving => exact ⟨rfl, rfl⟩
      | none | some .begun | some .committed | some (.undoing _ _) | some (.wanting _) =>
          cases holds

/-- Where nobody can go on, a session in the counter is kept waiting with a write
to come. -/
theorem caught_of_stuck (goes : config.Goes place) (stuck : config.Stuck) {i : Option ι}
    (counted : (config.threads i).counted = true) :
    (config.threads i).caught = true ∧ config.shared.writer = true := by
  have blocked := (stuck.2 i).resolve_left
    (Bool.eq_false_iff.mp (goes.unfinished_of_counted counted))
  cases thread : config.threads i with
  | backup place =>
      rw [thread] at counted
      cases counted
  | session client =>
      rw [thread] at counted blocked
      exact caught_of_blocked counted blocked

/-- **Where no writer is caught, somebody can go on.** -/
theorem not_stuck (goes : config.Goes place) : ¬config.Stuck := by
  intro stuck
  have writer := goes.writer
  have waits := stuck.2 none
  rw [goes.backup] at waits
  cases place with
  | locking | checkpointing | archiving =>
      rcases waits with finished | blocked
      · cases finished
      · cases blocked
  | waiting =>
      have busy := of_decide_eq_true (waits.resolve_left Bool.false_ne_true)
      obtain ⟨i, counted⟩ := goes.counter.exists_of_pos busy
      have taken := (goes.caught_of_stuck stuck counted).2
      exact Bool.noConfusion (writer.symm.trans taken)
  | draining =>
      have busy := of_decide_eq_true (waits.resolve_left Bool.false_ne_true)
      obtain ⟨i, holds⟩ := goes.guards.exists_of_pos busy
      obtain ⟨unfinished, free⟩ := @goes_on_of_holdsLock config.shared _ holds
      rcases stuck.2 i with finished | blocked
      · exact Bool.noConfusion (unfinished.symm.trans finished)
      · exact Bool.noConfusion (free.symm.trans blocked)
  | waitingAgain =>
      have busy := of_decide_eq_true (waits.resolve_left Bool.false_ne_true)
      obtain ⟨i, counted⟩ := goes.counter.exists_of_pos busy
      have free := goes.free (by rw [goes.backup]; rfl) i
      exact Bool.noConfusion (free.symm.trans (goes.caught_of_stuck stuck counted).1)
  | finished archive =>
      obtain ⟨i, unfinished⟩ := stuck.1
      have blocked := (stuck.2 i).resolve_left (Bool.eq_false_iff.mp unfinished)
      cases i with
      | none =>
          rw [goes.backup] at unfinished
          cases unfinished
      | some i =>
          obtain ⟨client, session, -⟩ := goes.sessions i
          rw [session] at blocked
          obtain ⟨session, phase, program⟩ := client
          match phase with
          | some (.wanting _) => exact Bool.noConfusion (writer.symm.trans blocked)
          | none | some .begun | some .committed | some (.undoing _ _) | some (.entered _)
          | some (.opened _ _) | some (.looping _ _ _) | some .closed | some .leaving => cases blocked

variable [DecidableEq ι] [Runtime]

omit config [DecidableEq ι] in
/-- The backup comes to wait with the lock from its call of `write`. -/
theorem locks_or_catches {shared : LockedDatabase} {place : BackupPlace}
    (catches : (Participant.backup (backupStep shared place).thread).catches = true) :
    (Participant.backup place).locks = true ∨ (Participant.backup place).catches = true := by
  cases place with
  | locking => exact .inl rfl
  | draining | waitingAgain => exact .inr rfl
  | checkpointing | archiving | finished => cases catches
  | waiting =>
      have still : (Participant.backup (backupStep shared .waiting).thread).catches = false := by
        unfold backupStep
        dsimp only
        split <;> rfl
      exact Bool.noConfusion (still.symm.trans catches)

/-- A turn in which no statement fails and no writer is caught. -/
theorem turn (goes : config.Goes place) (thread : Option ι)
    (accepted : BackupConfig.Accepted (advance backupSystemStep config thread))
    (noWriter : config.CatchesNoWriter thread) :
    ∃ next, BackupConfig.Goes (advance backupSystemStep config thread) next := by
  obtain ⟨atLock, atBegin⟩ := noWriter
  cases thread with
  | none =>
      have sound := goes.backupTurn
      have others : ∀ {i}, i ≠ none →
          (advance backupSystemStep config none).threads i = config.threads i :=
        fun different => Function.update_of_ne different _ _
      refine ⟨_, sound, fun i client session => ?_, fun catches i => ?_⟩
      · by_cases same : i = none
        · subst same
          cases session.symm.trans sound.backup
        · exact goes.complete i client ((others same).symm.trans session)
      · by_cases same : i = none
        · subst same
          rw [sound.backup]
          rfl
        · rw [others same]
          rw [sound.backup] at catches
          rw [goes.backup] at atLock
          rcases locks_or_catches catches with locks | catches
          · exact atLock locks i
          · exact goes.free (by rwa [goes.backup]) i
  | some i =>
      obtain ⟨client, session, stands⟩ := goes.sessions i
      have acts := accepted.acts session
      rw [advance_session session]
      refine ⟨place, goes.toSound.session session acts, fun j other here => ?_,
        fun catches j => ?_⟩
      · dsimp only at here
        by_cases same : j = some i
        · subst same
          rw [Function.update_self] at here
          cases here
          exact (acts.pendingAtEnd stands).trans (goes.complete _ _ session)
        · rw [Function.update_of_ne same] at here
          exact goes.complete j other here
      · dsimp only at catches ⊢
        rw [Function.update_of_ne (Option.some_ne_none i).symm] at catches
        by_cases same : j = some i
        · subst same
          have free := goes.free catches (some i)
          rw [session] at free atBegin
          rw [Function.update_self]
          by_contra now
          rcases acts.caught stands (Bool.eq_true_of_not_eq_false now) with before | ⟨begun, writes⟩
          · exact Bool.noConfusion (free.symm.trans before)
          · have enters : (Participant.session client).entersToWrite = true := by
              simp only [Participant.entersToWrite, begun, writes]
            exact Bool.noConfusion ((atBegin enters).symm.trans catches)
        · rw [Function.update_of_ne same]
          exact goes.free catches j

end BackupConfig.Goes

variable [DecidableEq ι] [Runtime] (db : Database) (programs : ι → List Statement)
  {schedule : List (Option ι)}

/-- **When backup and writers never deadlock.** Sessions run programs of complete
transactions, all of whose statements return `Ok`, beside one live backup. In every
run in which the backup takes the lock when no open transaction has a write to
come, and no transaction with a write to come enters the counter while the backup
waits with the lock, the state that is reached is not stuck. -/
theorem backup_never_stuck (complete : ∀ i, pendingAtEnd false (programs i) = false)
    (accepted : BackupConfig.Accepted
      (run backupSystemStep (backupSystem db programs) schedule))
    (catches : Along backupSystemStep BackupConfig.CatchesNoWriter (backupSystem db programs)
      schedule) :
    ¬BackupConfig.Stuck (run backupSystemStep (backupSystem db programs) schedule) := by
  have goes : ∃ place, BackupConfig.Goes
      (run backupSystemStep (backupSystem db programs) schedule) place := by
    revert accepted
    refine catches.run_invariant backupSystemStep (fun config : BackupConfig ι =>
      config.Accepted → ∃ place, config.Goes place) ?_ ?_
    · intro config thread catches earlier accepted
      obtain ⟨place, goes⟩ := earlier accepted.before
      exact goes.turn thread accepted catches
    · intro _
      refine ⟨.waiting, backupSystem_sound db programs, fun i client session => ?_, nofun⟩
      cases i with
      | none => cases session
      | some i =>
          cases session
          exact complete i
  obtain ⟨place, goes⟩ := goes
  exact goes.not_stuck

section Caught

omit [Runtime] in
theorem advance_other {step : LockedDatabase → Participant →
    Turn LockedDatabase Participant BackupEvent} {thread j : Option ι} (different : j ≠ thread) :
    (advance step config thread).threads j = config.threads j :=
  Function.update_of_ne different _ _

/-- The backup waits with the lock taken for a transaction that has a write to come. -/
def BackupConfig.Caught (config : BackupConfig ι) : Prop :=
  (config.threads none).catches = true ∧ ∃ i : ι, (config.threads (some i)).caught = true

/-- Neither of the two can end that. -/
theorem BackupConfig.Caught.turn (caught : config.Caught) (sound : config.Sound place)
    (thread : Option ι)
    (accepted : BackupConfig.Accepted (advance backupSystemStep config thread)) :
    BackupConfig.Caught (advance backupSystemStep config thread) := by
  obtain ⟨catches, i, held⟩ := caught
  have waits := catches
  rw [sound.backup] at waits
  cases thread with
  | none =>
      refine ⟨?_, i, ?_⟩
      · rw [sound.backupTurn.backup]
        cases place with
        | waiting | locking | checkpointing | archiving | finished => cases waits
        | draining =>
            unfold backupStep
            dsimp only
            split <;> rfl
        | waitingAgain =>
            obtain ⟨client, session, -⟩ := sound.sessions i
            have counted : (config.threads (some i)).counted = true := by
              rw [session] at held ⊢
              simp only [Participant.caught, Client.caught, Bool.and_eq_true] at held
              exact held.1.1
            have busy := sound.counter.pos counted
            simp only [backupStep, busy, if_true, Turn.wait, Participant.catches]
      · rwa [advance_other (Option.some_ne_none i)]
  | some j =>
      obtain ⟨client, session, stands⟩ := sound.sessions j
      have acts := accepted.acts session
      rw [advance_session session]
      refine ⟨?_, i, ?_⟩
      · dsimp only
        rwa [Function.update_of_ne (Option.some_ne_none j).symm]
      · dsimp only
        by_cases same : i = j
        · subst same
          rw [Function.update_self]
          rw [session] at held
          refine acts.stays_caught stands ?_ held
          rw [sound.writer]
          cases place with
          | draining | waitingAgain => rfl
          | waiting | locking | checkpointing | archiving | finished => cases waits
        · rwa [Function.update_of_ne fun equal => same (Option.some.inj equal)]

variable {programs}

/-- A turn that does not meet the condition catches a writer. -/
theorem BackupConfig.Sound.caught (sound : config.Sound place) {thread : Option ι}
    (accepted : BackupConfig.Accepted (advance backupSystemStep config thread))
    (catches : ¬config.CatchesNoWriter thread) :
    BackupConfig.Caught (advance backupSystemStep config thread) := by
  simp only [BackupConfig.CatchesNoWriter, not_and_or, Classical.not_imp, not_forall,
    Bool.not_eq_false] at catches
  cases thread with
  | none =>
      rw [sound.backup] at catches
      rcases catches with ⟨locks, j, held⟩ | ⟨enters, -⟩
      · cases place with
        | locking =>
            cases j with
            | none =>
                rw [sound.backup] at held
                cases held
            | some i =>
                refine ⟨?_, i, ?_⟩
                · rw [sound.backupTurn.backup]
                  rfl
                · rwa [advance_other (Option.some_ne_none i)]
        | waiting | draining | waitingAgain | checkpointing | archiving | finished => cases locks
      · cases enters
  | some i =>
      obtain ⟨client, session, stands⟩ := sound.sessions i
      rw [session] at catches
      rcases catches with ⟨locks, -⟩ | ⟨enters, waits⟩
      · cases locks
      · refine ⟨?_, i, ?_⟩
        · rwa [advance_other (Option.some_ne_none i).symm]
        · rw [advance_session session]
          dsimp only
          rw [Function.update_self]
          obtain ⟨begun, phase, program⟩ := client
          match phase with
          | some .begun =>
              have active : begun.transaction.active = true := stands.1
              have writes : writesBeforeEnd program = true := enters
              simp only [Participant.caught, Client.caught, Bool.and_eq_true]
              exact ⟨⟨active, active⟩, writes⟩
          | none | some .committed | some (.undoing _ _) | some (.wanting _) | some (.entered _)
          | some (.opened _ _) | some (.looping _ _ _) | some .closed | some .leaving => cases enters

/-- The condition is exact: once it is not met, the backup never comes to its
checkpoint, and the transaction it waits for never ends. -/
theorem caught_writer_blocks_backup {schedule later : List (Option ι)} {thread : Option ι}
    (catches : ¬BackupConfig.CatchesNoWriter
      (run backupSystemStep (backupSystem db programs) schedule) thread)
    (accepted : BackupConfig.Accepted
      (run backupSystemStep (backupSystem db programs) (schedule ++ thread :: later))) :
    BackupConfig.Caught
      (run backupSystemStep (backupSystem db programs) (schedule ++ thread :: later)) := by
  have start := run_sound db programs schedule
  rw [run_append] at accepted ⊢
  generalize run backupSystemStep (backupSystem db programs) schedule = config at *
  have goes : BackupConfig.Accepted
        (run backupSystemStep (advance backupSystemStep config thread) later) →
      (∃ place, BackupConfig.Sound
        (run backupSystemStep (advance backupSystemStep config thread) later) place) ∧
      BackupConfig.Caught (run backupSystemStep (advance backupSystemStep config thread) later) := by
    apply run_invariant backupSystemStep (fun config : BackupConfig ι =>
      config.Accepted → (∃ place, config.Sound place) ∧ config.Caught)
    · intro config thread earlier accepted
      obtain ⟨⟨place, sound⟩, caught⟩ := earlier accepted.before
      exact ⟨sound.turn thread accepted, caught.turn sound thread accepted⟩
    · intro accepted
      obtain ⟨place, sound⟩ := start accepted.before
      exact ⟨sound.turn thread accepted, sound.caught accepted catches⟩
  exact (goes accepted).2

end Caught

end Waiting

section Example

/-- A transaction that begins between the two waits of the backup: the session
wants the lock the backup has, and the backup waits for the session's transaction. -/
theorem begin_between_waits_deadlocks :
    ¬∀ (programs : Fin 1 → List Statement) (schedule : List (Option (Fin 1))),
      (∀ i, pendingAtEnd false (programs i) = false) →
      BackupConfig.Accepted
        (run (@backupSystemStep Runtime.reference) (backupSystem oneTable programs) schedule) →
      ¬BackupConfig.Stuck
        (run (@backupSystemStep Runtime.reference) (backupSystem oneTable programs) schedule) := by
  intro claim
  have stuck : BackupConfig.Stuck
      (run (@backupSystemStep Runtime.reference)
        (backupSystem oneTable fun _ : Fin 1 => [.startTransaction, insertT [1], .commit])
        [none, some 0, some 0, none, none, some 0]) := by
    decide +kernel
  exact claim _ _ (by decide) (by decide +kernel) stuck

/-- The transaction of `twoPrograms` is over when the backup takes the lock. -/
theorem backup_never_stuck_two :
    ¬BackupConfig.Stuck (run (@backupSystemStep Runtime.reference)
      (backupSystem oneTable twoPrograms) twoTurns) :=
  @backup_never_stuck _ _ Runtime.reference oneTable twoPrograms twoTurns (by decide)
    (by decide +kernel) (by decide +kernel)

end Example

end MoodengSQL
