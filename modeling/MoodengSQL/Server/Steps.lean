import MoodengSQL.Foundation.Traces
import MoodengSQL.Server.Protocol

/-!
# The steps of the message loop

The body of the message loop sends messages, keeps things for the connection and
executes texts, and never reads. A relation that these steps move along is one
the body moves along. In particular the body leaves the client's bytes as they
are, and so the loop ends before its fuel does.
-/

namespace MoodengSQL

open Foundation Effect ConnM

section Kept

/-- Neither `Parse` nor `Bind` touches the engine's session. -/
theorem session_of_handleParse (payload : List UInt8) (conn : ConnectionSession) :
    (handleParse payload conn).session = conn.session := by
  dsimp only [handleParse]
  split <;> rfl

/-- The parameters in a `Bind` message after its two names, if it has any. -/
def boundParams (cur : List UInt8) : Except ServerFailure (Option (List (Option String))) := do
  let cur ← if 2 ≤ cur.length then (getI16 cur).map Prod.snd else .ok cur
  if 2 ≤ cur.length then
    let (count, cur) ← getI16 cur
    return some (← bindParams count.toInt.toNat cur)
  else return none

/-- The connection with the parameters of a `Bind` message, if it has any. -/
def ConnectionSession.withParams (conn : ConnectionSession) :
    Option (List (Option String)) → ConnectionSession
  | some params => { conn with portalParams := params }
  | none => conn

/-- The connection with the statement a `Bind` message names, if it knows it. -/
def ConnectionSession.withStatement (conn : ConnectionSession) (statement : String) :
    ConnectionSession :=
  if statement ≠ "" then
    match conn.prepared[statement]? with
    | some sql => { conn with lastStatement := some sql }
    | none => conn
  else conn

/-- `handle_bind` keeps the parameters and then looks the statement up. -/
theorem handleBind_eq (payload : List UInt8) (conn : ConnectionSession) :
    handleBind payload conn = (boundParams (readCstringBuf (readCstringBuf payload).2).2).map
      fun params => (conn.withParams params).withStatement
        (readCstringBuf (readCstringBuf payload).2).1 := by
  generalize named : readCstringBuf (readCstringBuf payload).2 = entry
  obtain ⟨statement, cur⟩ := entry
  have choose : ∀ conn : ConnectionSession, (if statement ≠ "" then
      match conn.prepared[statement]? with
      | some sql => return { conn with lastStatement := some sql }
      | none => return conn
    else return conn : Except ServerFailure ConnectionSession) =
      .ok (conn.withStatement statement) := by
    intro conn
    unfold ConnectionSession.withStatement
    split
    · cases conn.prepared[statement]? <;> rfl
    · rfl
  have later : ∀ cur : List UInt8, (do
      let conn ← if 2 ≤ cur.length then do
          let (count, cur) ← getI16 cur
          let params ← bindParams count.toInt.toNat cur
          .ok { conn with portalParams := params }
        else .ok conn
      if statement ≠ "" then
        match conn.prepared[statement]? with
        | some sql => return { conn with lastStatement := some sql }
        | none => return conn
      else return conn : Except ServerFailure ConnectionSession) =
      (do
        if 2 ≤ cur.length then
          let (count, cur) ← getI16 cur
          return some (← bindParams count.toInt.toNat cur)
        else return none : Except ServerFailure (Option (List (Option String)))).map
          fun params => (conn.withParams params).withStatement statement := by
    intro cur
    simp only [choose]
    split
    · cases getI16 cur with
      | error e => rfl
      | ok entry =>
          obtain ⟨count, cur⟩ := entry
          dsimp only [Bind.bind, Except.bind]
          cases bindParams count.toInt.toNat cur <;> rfl
    · rfl
  unfold handleBind boundParams
  simp only [named]
  split
  · cases getI16 cur with
    | error e => rfl
    | ok entry => exact later entry.2
  · exact later cur

@[simp] theorem ConnectionSession.session_withParams (conn : ConnectionSession)
    (params : Option (List (Option String))) :
    (conn.withParams params).session = conn.session := by
  cases params <;> rfl

@[simp] theorem ConnectionSession.session_withStatement (conn : ConnectionSession)
    (statement : String) : (conn.withStatement statement).session = conn.session := by
  unfold withStatement
  split
  · cases conn.prepared[statement]? <;> rfl
  · rfl

theorem session_of_handleBind {payload : List UInt8} {conn conn' : ConnectionSession}
    (bound : handleBind payload conn = .ok conn') : conn'.session = conn.session := by
  rw [handleBind_eq] at bound
  cases params : boundParams (readCstringBuf (readCstringBuf payload).2).2 with
  | error e =>
      rw [params] at bound
      cases bound
  | ok params' =>
      rw [params] at bound
      cases bound
      simp only [ConnectionSession.session_withStatement, ConnectionSession.session_withParams]

end Kept

section Served

variable [Runtime] {around : Surroundings} {rel : ConnState → ConnState → Prop}
  [IsPreorder ConnState rel]

variable (rel) in
/-- The steps a result or an error is sent with move along the relation. -/
structure Sends : Prop where
  message : ∀ tag body, tag ≠ 'Z'.toUInt8 → Moves rel (emit (.message tag body))
  write : Moves rel writeAll
  flag : ∀ (s : ConnState) (inError : Bool), rel s { s with conn := { s.conn with inError } }

variable (around rel) in
/-- So do the steps a text is answered with. -/
structure Replies : Prop extends Sends rel where
  execute : ∀ sql, Moves rel (executeSql around sql)

variable (around rel) in
/-- The steps the body of the message loop is made of move along the relation. -/
structure Serves : Prop extends Replies around rel where
  ready : ∀ body, Moves rel (emit (.message 'Z'.toUInt8 body))
  keep : ∀ (s : ConnState) (conn : ConnectionSession), conn.session = s.conn.session →
    rel s { s with conn }

omit [Runtime] in
theorem moves_lift {α : Type} (result : Except ServerFailure α) : Moves rel (lift result) := by
  cases result with
  | ok a => exact .ret a
  | error e => exact .fail e

omit [Runtime] in
/-- The three writes of a message. -/
theorem moves_writes (write : Moves rel writeAll) :
    Moves rel (do writeAll; writeAll; writeAll : ConnM Unit) :=
  .seq write fun _ => .seq write fun _ => write

omit [Runtime] in
theorem moves_sendReady (ready : ∀ body, Moves rel (emit (.message 'Z'.toUInt8 body)))
    (write : Moves rel writeAll) : Moves rel sendReady :=
  .seq .read fun _ => .seq (ready _) fun _ => moves_writes write

namespace Sends

variable (sends : Sends rel)

include sends

omit [Runtime] in
theorem sendMessage {tag : Char} (notReady : tag.toUInt8 ≠ 'Z'.toUInt8) (body : List UInt8) :
    Moves rel (sendMessage tag body) :=
  .seq (sends.message _ body notReady) fun _ => moves_writes sends.write

theorem sendRows (rows : List Row) : Moves rel (sendRows rows) := by
  induction rows with
  | nil => exact .ret _
  | cons row rest ih => exact .seq (sends.sendMessage (by decide) _) fun _ => ih

theorem sendQueryResult (result : QueryResult) : Moves rel (sendQueryResult result) := by
  unfold MoodengSQL.sendQueryResult
  split
  · exact sends.sendMessage (by decide) _
  · refine .seq (sends.sendMessage (by decide) _) fun _ => ?_
    exact .seq (sends.sendRows _) fun _ => sends.sendMessage (by decide) _

omit [Runtime] [IsPreorder ConnState rel] in
theorem setError (inError : Bool) :
    Moves rel (modifyConn fun conn => { conn with inError }) :=
  .write fun s => sends.flag s inError

/-- The outcome of a text is noted and reported. -/
theorem report (outcome : Except MoodengError QueryResult) : Moves rel (match outcome with
    | .ok result => do
        modifyConn fun conn => { conn with inError := false }
        MoodengSQL.sendQueryResult result
    | .error e => do
        modifyConn fun conn => { conn with inError := true }
        sendError e.display) := by
  cases outcome with
  | ok result => exact .seq (sends.setError false) fun _ => sends.sendQueryResult result
  | error e => exact .seq (sends.setError true) fun _ => sends.sendMessage (by decide) _

end Sends

namespace Replies

variable (replies : Replies around rel)

include replies

theorem runSql (sql : String) : Moves rel (runSql around sql) := by
  unfold MoodengSQL.runSql
  exact .seq (moves_lift _) fun _ => .seq (replies.execute sql) fun outcome => replies.report outcome

theorem handleExecute : Moves rel (handleExecute around) := by
  refine .seq .read fun s => ?_
  dsimp only
  split
  · exact .ret _
  · exact replies.runSql _

end Replies

namespace Serves

variable (serves : Serves around rel)

include serves

theorem bind (payload : List UInt8) : Moves rel (do
    let s ← get
    let conn ← lift (handleBind payload s.conn)
    modifyConn fun _ => conn) := by
  intro s
  cases outcome : handleBind payload s.conn with
  | error e =>
      have failed : finalState (do
          let s ← get
          let conn ← lift (handleBind payload s.conn)
          modifyConn fun _ => conn) s = s := by
        simp only [finalState, get_bind, outcome, lift]
        rfl
      rw [failed]
      exact refl_of rel s
  | ok conn =>
      have kept : finalState (do
          let s ← get
          let conn ← lift (handleBind payload s.conn)
          modifyConn fun _ => conn) s = { s with conn } := by
        simp only [finalState, get_bind, outcome, lift]
        rfl
      rw [kept]
      exact serves.keep s conn (session_of_handleBind outcome)

/-- The body of the message loop moves along the relation. -/
theorem handleMessage (msgType : UInt8) (payload : List UInt8) :
    Moves rel (handleMessage around msgType payload) := by
  unfold MoodengSQL.handleMessage
  split
  · dsimp only
    split
    · exact .ret _
    · exact .seq (serves.runSql _) fun _ => .seq (moves_sendReady serves.ready serves.write) fun _ => .ret _
  · refine .seq (.write fun s => serves.keep s _ ?_) fun _ => .ret _
    exact session_of_handleParse payload s.conn
  · have bound := Moves.seq (serves.bind payload) fun _ => Moves.ret true
    simpa only [bind_assoc] using bound
  · exact .seq serves.handleExecute fun _ => .ret _
  · exact .seq (serves.setError false) fun _ => .seq (moves_sendReady serves.ready serves.write) fun _ => .ret _
  · exact .ret _
  · exact .ret _

end Serves

end Served

section Fuel

section Reading

variable {rel : ConnState → ConnState → Prop} [IsPreorder ConnState rel]
  (takes : ∀ s input, rel s { s with input })

include takes

omit [IsPreorder ConnState rel] in
theorem moves_readExact (n : Nat) : Moves rel (readExact n) := by
  intro s
  by_cases enough : n ≤ s.input.length
  · have read : readExact n s = .ok (s.input.take n) { s with input := s.input.drop n } :=
      if_pos enough
    rw [finalState_of_ok read]
    exact takes s _
  · have failed : readExact n s = .error (.error "early eof") { s with input := [] } :=
      if_neg enough
    rw [finalState_of_error failed]
    exact takes s _

theorem moves_readU8 : Moves rel readU8 := .seq (moves_readExact takes 1) fun _ => .ret _

theorem moves_readI32 : Moves rel readI32 := .seq (moves_readExact takes 4) fun _ => .ret _

theorem moves_readBody (len : Nat) : Moves rel (readBody len) := by
  unfold readBody
  split
  · exact .fail _
  · exact moves_readExact takes _

/-- Reading a message moves along a relation that lets bytes be taken and messages
be noted. -/
theorem moves_readMessage (notes : ∀ tag payload, Moves rel (emit (.received tag payload))) :
    Moves rel readMessage := by
  refine .seq .read fun s => ?_
  split
  · exact .ret _
  · refine .seq (moves_readU8 takes) fun msgType => .seq (moves_readI32 takes) fun len => ?_
    refine .seq (moves_readBody takes _) fun payload => ?_
    exact .seq (notes _ _) fun _ => .ret _

end Reading

/-- The client's bytes stay as they are. -/
def SameInput (s s' : ConnState) : Prop := s'.input = s.input

instance : IsPreorder ConnState SameInput where
  refl _ := rfl
  trans _ _ _ first second := Eq.trans second first

variable [Runtime] (around : Surroundings)

theorem serves_sameInput : Serves around SameInput where
  message _ _ _ _ := rfl
  ready _ _ := rfl
  write s := by
    obtain ⟨input, outages, conn, db, trace⟩ := s
    rcases outages with _ | ⟨_ | _, rest⟩ <;> rfl
  flag _ _ := rfl
  keep _ _ _ := rfl
  execute sql s := by
    unfold finalState executeSql
    dsimp only
    cases executeText (around.parseSql sql) { s.db with session := s.conn.session } with
    | ok result after => rfl
    | error e after => cases e <;> rfl

omit [Runtime] in
/-- Reading takes its bytes away. -/
theorem length_of_readExact {n : Nat} {s s' : ConnState} {bytes : List UInt8}
    (ran : readExact n s = .ok bytes s') : s'.input.length + n = s.input.length := by
  unfold readExact at ran
  split at ran
  · cases ran
    dsimp only
    rw [List.length_drop]
    omega
  · cases ran

omit [Runtime] in
/-- A message that was read has made the input shorter. -/
theorem length_of_readMessage {message : UInt8 × List UInt8} {s s' : ConnState}
    (ran : readMessage s = .ok (some message) s') : s'.input.length < s.input.length := by
  unfold readMessage at ran
  rw [get_bind] at ran
  split at ran
  · exact nomatch (pure_eq_ok.mp ran).1
  · obtain ⟨msgType, afterType, readType, ran⟩ := bind_eq_ok.mp ran
    obtain ⟨len, afterLen, readLen, ran⟩ := bind_eq_ok.mp ran
    obtain ⟨payload, afterBody, readPayload, ran⟩ := bind_eq_ok.mp ran
    obtain ⟨_, noted, noting, ran⟩ := bind_eq_ok.mp ran
    obtain ⟨-, rfl⟩ := pure_eq_ok.mp ran
    obtain ⟨_, mid, typeByte, ended⟩ := bind_eq_ok.mp readType
    obtain ⟨-, rfl⟩ := pure_eq_ok.mp ended
    obtain ⟨_, mid, lenBytes, ended⟩ := bind_eq_ok.mp readLen
    obtain ⟨-, rfl⟩ := pure_eq_ok.mp ended
    have shorter := length_of_readExact typeByte
    have further := length_of_readExact lenBytes
    rw [modify_eq_ok.mp noting]
    unfold readBody at readPayload
    split at readPayload
    · exact (throw_eq_ok.mp readPayload).elim
    · have last := length_of_readExact readPayload
      dsimp only
      omega

/-- **The message loop ends before its fuel does.** With more fuel than the client
has bytes, more fuel makes no difference. -/
theorem messageLoop_fuel (fuel more : Nat) (s : ConnState) (enough : s.input.length < fuel) :
    messageLoop around (fuel + more) s = messageLoop around fuel s := by
  induction fuel generalizing s with
  | zero => omega
  | succ fuel ih =>
      rw [Nat.add_right_comm]
      unfold messageLoop
      cases outcome : readMessage s with
      | error e mid => simp only [Bind.bind, EStateM.bind, outcome]
      | ok next mid =>
          rw [bind_of_ok outcome, bind_of_ok outcome]
          cases next with
          | none => rfl
          | some message =>
              have shorter := length_of_readMessage outcome
              dsimp only
              cases handled : handleMessage around message.1 message.2 mid with
              | error e after => simp only [Bind.bind, EStateM.bind, handled]
              | ok goesOn after =>
                  rw [bind_of_ok handled, bind_of_ok handled]
                  have same : after.input = mid.input :=
                    ((serves_sameInput around).handleMessage _ _).of_ok handled
                  cases goesOn with
                  | false => rfl
                  | true =>
                      apply ih after
                      rw [same]
                      omega

end Fuel

end MoodengSQL
