import MoodengSQL.Server.Caller
import MoodengSQL.Server.Causal
import MoodengSQL.Server.Portals

/-!
# How the server answers the command line

What the server sends on a connection that does not fail: to the start-up message, to a
text, and to `Terminate`. A server that requires TLS or a password answers the start-up
message with one message, and waits or ends.
-/

namespace MoodengSQL

open Foundation Foundation.Conversation Effect ConnM

section Answering

variable [Runtime] (around : Surroundings)

/-- A connection that has not sent anything yet. -/
def newConnection (db : Database) : ConnState :=
  { input := [], outages := [], conn := .new, db, trace := [] }

/-- What the engine gives for a text in a session that begins, other than a panic. -/
inductive Answered (db : Database) (sql : String) :
    Except MoodengError QueryResult → Executor → Prop
  | result {result : QueryResult} {after : Executor}
      (ran : executeText (around.parseSql sql) { db with session := .new } = .ok result after) :
      Answered db sql (.ok result) after
  | refused {e : MoodengError} {after : Executor}
      (ran : executeText (around.parseSql sql) { db with session := .new } =
        .error (.error e) after) : Answered db sql (.error e) after

/-- What the server keeps for the connection behind it. -/
def answeredSession (outcome : Except MoodengError QueryResult) (after : Executor) :
    ConnectionSession :=
  { ConnectionSession.new with session := after.session, inError := outcome.toOption.isNone }

/-- The messages that answer a text, before `ReadyForQuery`. -/
def answerMessages : Except MoodengError QueryResult → List ConnEvent
  | .ok result =>
      if result.rows = [] then
        [.message 'C'.toUInt8
          (utf8Bytes (result.message.getD (toString result.rowsAffected ++ " 0")) ++ [0])]
      else .message 'T'.toUInt8 (rowDescription result.columns) :: result.rows.map rowMessage ++
        [.message 'C'.toUInt8 (utf8Bytes ("SELECT " ++ toString result.rows.length) ++ [0])]
  | .error e => [.message 'E'.toUInt8 ('M'.toUInt8 :: utf8Bytes e.display ++ [0, 0])]

/-- The messages that answer a text. -/
def answer (outcome : Except MoodengError QueryResult) (after : Executor) : List ConnEvent :=
  answerMessages outcome ++ [.message 'Z'.toUInt8 [(answeredSession outcome after).readyStatus]]

/-- The messages of `welcome`. -/
def welcomeMessages : List ConnEvent :=
  [.message 'R'.toUInt8 (toBeBytes 4 0),
    .message 'S'.toUInt8 (utf8Bytes "server_version" ++ 0 :: utf8Bytes "16.0-moodeng" ++ [0]),
    .message 'S'.toUInt8 (utf8Bytes "server_encoding" ++ 0 :: utf8Bytes "UTF8" ++ [0]),
    .message 'S'.toUInt8 (utf8Bytes "client_encoding" ++ 0 :: utf8Bytes "UTF8" ++ [0]),
    .message 'Z'.toUInt8 ['I'.toUInt8]]

variable {s : ConnState}

omit [Runtime] in
theorem sendMessage_quiet (quiet : s.outages = []) (tag : Char) (body : List UInt8) :
    sendMessage tag body s = .ok () { s with trace := s.trace ++ [.message tag.toUInt8 body] } := by
  obtain ⟨input, outages, conn, db, trace⟩ := s
  subst quiet
  rfl

theorem sendRows_quiet (quiet : s.outages = []) (rows : List Row) :
    sendRows rows s = .ok () { s with trace := s.trace ++ rows.map rowMessage } := by
  induction rows generalizing s with
  | nil =>
      rw [List.map_nil, List.append_nil]
      rfl
  | cons row rest ih =>
      have later := @ih { s with trace := s.trace ++ [rowMessage row] } quiet
      refine (bind_of_ok (sendMessage_quiet quiet 'D' _)).trans (later.trans ?_)
      dsimp only
      rw [List.append_assoc]
      rfl

theorem sendQueryResult_quiet (quiet : s.outages = []) (result : QueryResult) :
    sendQueryResult result s =
      .ok () { s with trace := s.trace ++ answerMessages (.ok result) } := by
  rw [answerMessages, sendQueryResult]
  by_cases empty : result.rows = []
  · rw [if_pos empty, if_pos empty]
    exact sendMessage_quiet quiet 'C' _
  · rw [if_neg empty, if_neg empty]
    let described : ConnState :=
      { s with trace := s.trace ++ [.message 'T'.toUInt8 (rowDescription result.columns)] }
    let listed : ConnState :=
      { described with trace := described.trace ++ result.rows.map rowMessage }
    have rows : sendRows result.rows described = .ok () listed :=
      @sendRows_quiet _ described quiet _
    have tag := @sendMessage_quiet listed quiet 'C'
      (utf8Bytes ("SELECT " ++ toString result.rows.length) ++ [0])
    refine (bind_of_ok (sendMessage_quiet quiet 'T' _)).trans ?_
    refine (bind_of_ok rows).trans (tag.trans ?_)
    simp only [listed, described, List.append_assoc, List.cons_append, List.nil_append]

/-- A text is run, and its answer sent. -/
theorem runSql_answered (quiet : s.outages = []) (begins : s.conn = .new) {sql : String}
    (preview : canPreview sql = true) {outcome : Except MoodengError QueryResult}
    {after : Executor} (answered : Answered around s.db sql outcome after) :
    runSql around sql s = .ok () { s with
      conn := answeredSession outcome after
      db := after.toDatabase
      trace := s.trace ++ .executed sql :: answerMessages outcome } := by
  obtain ⟨input, outages, conn, db, trace⟩ := s
  obtain rfl : outages = [] := quiet
  obtain rfl : conn = .new := begins
  have previewed : ∃ text, summarizeSql sql = .ok text := by
    unfold canPreview at preview
    cases summary : summarizeSql sql with
    | ok text => exact ⟨text, rfl⟩
    | error e =>
        rw [summary] at preview
        cases preview
  obtain ⟨text, previewed⟩ := previewed
  unfold runSql
  rw [previewed]
  change (executeSql around sql >>= _) _ = _
  cases answered with
  | @result result after ran =>
      have executes : executeSql around sql { input, outages := [], conn := .new, db, trace } =
          .ok (.ok result) {
            input
            outages := []
            conn := { ConnectionSession.new with session := after.session }
            db := after.toDatabase
            trace := trace ++ [.executed sql] } := by
        unfold executeSql
        dsimp only [ConnectionSession.new] at ran ⊢
        rw [ran]
      rw [bind_of_ok executes]
      refine (sendQueryResult_quiet (by rfl) result).trans ?_
      dsimp only
      rw [List.append_assoc]
      rfl
  | @refused e after ran =>
      have executes : executeSql around sql { input, outages := [], conn := .new, db, trace } =
          .ok (.error e) {
            input
            outages := []
            conn := { ConnectionSession.new with session := after.session }
            db := after.toDatabase
            trace := trace ++ [.executed sql] } := by
        unfold executeSql
        dsimp only [ConnectionSession.new] at ran ⊢
        rw [ran]
      let noted : ConnState := {
        input
        outages := []
        conn := answeredSession (.error e) after
        db := after.toDatabase
        trace := trace ++ [.executed sql] }
      rw [bind_of_ok executes]
      refine (@sendMessage_quiet noted rfl 'E' _).trans ?_
      dsimp only [noted]
      rw [List.append_assoc]
      rfl

/-- A `Query` message is handled. -/
theorem handleMessage_query (quiet : s.outages = []) (begins : s.conn = .new) {sql : String}
    (present : sql ≠ "") (zeroFree : '\x00' ∉ sql.toList) (preview : canPreview sql = true)
    {outcome : Except MoodengError QueryResult} {after : Executor}
    (answered : Answered around s.db sql outcome after) :
    handleMessage around 'Q'.toUInt8 (utf8Bytes sql ++ [0]) s = .ok true { s with
      conn := answeredSession outcome after
      db := after.toDatabase
      trace := s.trace ++ .executed sql :: answer outcome after } := by
  have text : readCstring (utf8Bytes sql ++ [0]) = sql := by
    rw [readCstring, readCstringBuf_utf8Bytes zeroFree]
  have branch (payload : List UInt8) : handleMessage around 'Q'.toUInt8 payload =
      if readCstring payload = "" then pure true else do
        runSql around (readCstring payload)
        sendReady
        return true := rfl
  rw [branch, text, if_neg present,
    bind_of_ok (runSql_answered around quiet begins preview answered)]
  let replied : ConnState := { s with
    conn := answeredSession outcome after
    db := after.toDatabase
    trace := s.trace ++ .executed sql :: answerMessages outcome }
  have ready : sendReady replied = .ok () { replied with
      trace := replied.trace ++
        [.message 'Z'.toUInt8 [(answeredSession outcome after).readyStatus]] } :=
    @sendMessage_quiet replied quiet 'Z' _
  refine (bind_of_ok ready).trans ?_
  dsimp only [answer, replied]
  rw [List.append_assoc, List.cons_append]
  rfl

end Answering

/-- What has been executed grows with what has happened. -/
theorem executions_prefix {s s' : ConnState} (grows : s.trace <+: s'.trace) :
    executions s <+: executions s' := grows.filterMap _

/-- Messages are not executed. -/
theorem executions_messages {s : ConnState}
    (messages : ∀ event ∈ s.trace, ∃ tag body, event = .message tag body) :
    executions s = [] := by
  apply List.filterMap_eq_nil_iff.mpr
  intro event member
  obtain ⟨tag, body, rfl⟩ := messages event member
  rfl

section Framing

variable {s : ConnState} {bytes rest : List UInt8}

theorem readExact_append (input : s.input = bytes ++ rest) :
    ConnM.readExact bytes.length s = .ok bytes { s with input := rest } := by
  refine readExact_eq_ok.mpr ⟨?_, ?_, ?_⟩
  · rw [input, List.length_append]
    exact Nat.le_add_right _ _
  · rw [input, List.take_left' rfl]
  · rw [input, List.drop_left' rfl]

/-- A number is read as it was written. -/
theorem readI32_append {n : Nat} (small : n < 2 ^ 31) (input : s.input = toBeBytes 4 n ++ rest) :
    readI32 s = .ok (Int32.ofNat n) { s with input := rest } := by
  have read := readExact_append input
  rw [toBeBytes_length] at read
  rw [readI32, bind_of_ok read, (Client.readLength small).1]
  rfl

theorem readBody_append {len : Nat} (size : len = bytes.length + 4) (short : len < 2 ^ 31)
    (input : s.input = bytes ++ rest) : readBody len s = .ok bytes { s with input := rest } := by
  subst size
  unfold readBody
  rw [if_neg (by omega), Nat.add_sub_cancel]
  exact readExact_append input

theorem readU8_append {byte : UInt8} (input : s.input = byte :: rest) :
    readU8 s = .ok byte { s with input := rest } := by
  have taken := @readExact_append s [byte] rest input
  rw [readU8]
  exact bind_of_ok taken

/-- A message is read as it was framed. -/
theorem readMessage_append {tag : UInt8} (short : bytes.length + 4 < 2 ^ 31)
    (input : s.input = tag :: (toBeBytes 4 (bytes.length + 4) ++ (bytes ++ rest))) :
    readMessage s = .ok (some (tag, bytes))
      { s with input := rest, trace := s.trace ++ [.received tag bytes] } := by
  have present : s.input ≠ [] := by
    rw [input]
    exact List.cons_ne_nil _ _
  unfold readMessage
  rw [get_bind, if_neg present, bind_of_ok (readU8_append input),
    bind_of_ok (readI32_append short rfl)]
  dsimp only
  rw [Client.asUsize_ofNat short, bind_of_ok (readBody_append rfl short rfl)]
  rfl

end Framing

section Asking

variable (around : Surroundings) (nonce : List UInt8) {s : ConnState} {rest : List UInt8}

theorem readU8_nil (empty : s.input = []) : readU8 s = .error (.error "early eof") s := by
  obtain ⟨input, outages, conn, db, trace⟩ := s
  obtain rfl : input = [] := empty
  rfl

/-- The message that asks for a password, or for an exchange with SCRAM. -/
def AuthConfig.question (auth : AuthConfig) : List UInt8 :=
  if auth.scramAvailable then toBeBytes 4 10 ++ utf8Bytes (SCRAM_SHA256 ++ "\x00\x00")
  else toBeBytes 4 3

/-- A server that wants a password asks for it, and waits. -/
theorem admitClient_waits {auth : AuthConfig} (required : auth.required = true)
    (quiet : s.outages = []) (empty : s.input = []) :
    ∃ after, admitClient around auth nonce s = .error (.error "early eof") after ∧
      after.trace = s.trace ++ [.message 'R'.toUInt8 auth.question] := by
  let asked : ConnState := { s with
    trace := s.trace ++ [.message 'R'.toUInt8 auth.question] }
  have sent : sendMessage 'R' auth.question s = .ok () asked := sendMessage_quiet quiet 'R' _
  have ended := @readU8_nil asked empty
  refine ⟨asked, ?_, rfl⟩
  unfold admitClient authenticate
  rw [if_pos required]
  by_cases scram : auth.scramAvailable = true
  · have waits : readSaslMessage asked = .error (.error "early eof") asked :=
      bind_eq_error.mpr (.inl ended)
    have question : auth.question = toBeBytes 4 10 ++ utf8Bytes (SCRAM_SHA256 ++ "\x00\x00") :=
      if_pos scram
    rw [if_pos scram]
    unfold authenticateScram
    rw [← question, bind_of_ok sent]
    exact bind_eq_error.mpr (.inl waits)
  · have question : auth.question = toBeBytes 4 3 := if_neg scram
    rw [if_neg scram]
    unfold authenticateCleartext
    rw [← question, bind_of_ok sent]
    exact bind_eq_error.mpr (.inl ended)

/-- The password message of a client. -/
def passwordMessage (password : String) : List UInt8 :=
  'p'.toUInt8 :: toBeBytes 4 ((utf8Bytes password).length + 5) ++ utf8Bytes password ++ [0]

/-- A password that is asked for in clear text is read and verified. -/
theorem admitClient_password {auth : AuthConfig} (required : auth.required = true)
    (clear : auth.scramAvailable = false) (quiet : s.outages = []) {password : String}
    (zeroFree : '\x00' ∉ password.toList) (short : (utf8Bytes password).length + 5 < 2 ^ 31)
    (input : s.input = passwordMessage password ++ rest) :
    admitClient around auth nonce s =
      (if auth.verify around password then pure true
        else do
          sendError "authentication failed"
          return false : ConnM Bool)
      { s with
        input := rest
        trace := s.trace ++ [.message 'R'.toUInt8 auth.question, .verified password] } := by
  let asked : ConnState := { s with
    trace := s.trace ++ [.message 'R'.toUInt8 auth.question] }
  let text := utf8Bytes password ++ [0]
  have size : text.length + 4 = (utf8Bytes password).length + 5 := by
    rw [show text.length = (utf8Bytes password).length + 1 from List.length_append]
  have framed : asked.input = 'p'.toUInt8 :: (toBeBytes 4 (text.length + 4) ++ (text ++ rest)) := by
    change s.input = _
    rw [input, passwordMessage, size]
    simp only [text, List.cons_append, List.append_assoc]
  have sent : sendMessage 'R' auth.question s = .ok () asked := sendMessage_quiet quiet 'R' _
  have question : auth.question = toBeBytes 4 3 := if_neg (by rw [clear]; decide)
  have read : readCstring text = password := by
    rw [readCstring, readCstringBuf_utf8Bytes zeroFree]
  unfold admitClient authenticate
  rw [if_pos required, clear, if_neg Bool.false_ne_true]
  unfold authenticateCleartext
  rw [← question, bind_of_ok sent, bind_of_ok (readU8_append framed), if_neg (by decide),
    bind_of_ok (readI32_append (by rw [size]; exact short) rfl)]
  dsimp only
  rw [Client.asUsize_ofNat (by rw [size]; exact short),
    bind_of_ok (readBody_append rfl (by rw [size]; exact short) rfl), read]
  let verified : ConnState := { s with
    input := rest
    trace := s.trace ++ [.message 'R'.toUInt8 auth.question, .verified password] }
  have noting : emit (ConnEvent.verified password) { asked with input := rest } =
      .ok () verified := by
    change EStateM.Result.ok () _ = _
    simp only [asked, verified, List.append_assoc, List.cons_append, List.nil_append]
  rw [bind_of_ok noting]
  cases auth.verify around password with
  | true => rfl
  | false => rfl

end Asking

section Entering

/-- A start-up message: its length, and the bytes behind it. -/
def startUp (body : List UInt8) : List UInt8 := toBeBytes 4 (body.length + 4) ++ body

/-- The body holds a version and more, and its length is positive as an `i32`. -/
structure StartsUp (body : List UInt8) : Prop where
  long : 4 < body.length
  short : body.length + 4 < 2 ^ 31

/-- A session that has begun. -/
def enteredSession (db : Database) (input : List UInt8) : ConnState :=
  { input, outages := [], conn := .new, db, trace := .entered false :: welcomeMessages }

/-- The server without its certificates. -/
def Server.withoutTls (server : Server) : Server := { server with tlsAcceptor := none }

/-- How a server that does not trust answers a start-up message. -/
def Server.refusal (server : Server) : ConnEvent :=
  if server.tls.requireTls then
    .message 'E'.toUInt8 ('M'.toUInt8 :: utf8Bytes "SSL required" ++ [0, 0])
  else if server.auth.requireTlsForPassword && !server.auth.scramAvailable then
    .message 'E'.toUInt8
      ('M'.toUInt8 :: utf8Bytes "password authentication requires TLS" ++ [0, 0])
  else .message 'R'.toUInt8 server.auth.question

/-- It is not ready then. -/
theorem Server.refusal_message (server : Server) : ∃ tag body,
    server.refusal = .message tag body ∧ tag ≠ 'Z'.toUInt8 ∧ body.length + 4 < 2 ^ 31 := by
  unfold Server.refusal AuthConfig.question
  split
  · exact ⟨_, _, rfl, by decide, by decide⟩
  · split
    · exact ⟨_, _, rfl, by decide, by decide⟩
    · split
      · exact ⟨_, _, rfl, by decide, by decide⟩
      · exact ⟨_, _, rfl, by decide, by decide⟩

/-- The start-up message of the command line behind its length. -/
def startupBody : List UInt8 := toBeBytes 4 196608 ++ utf8Bytes "user\x00moodeng\x00" ++ [0]

theorem startupBody_startsUp : StartsUp startupBody := ⟨by decide, by decide⟩

theorem startupMessage_eq : startupMessage = startUp startupBody := by decide

variable (around : Surroundings) {server : Server} (nonce : List UInt8) {s : ConnState}
  {body rest : List UInt8} (starts : StartsUp body)

include starts

theorem StartsUp.asUsize_eq : asUsize (Int32.ofNat (body.length + 4)) = body.length + 4 :=
  Client.asUsize_ofNat starts.short

/-- It is not the length of a request for TLS. -/
theorem StartsUp.ne_eight : asUsize (Int32.ofNat (body.length + 4)) ≠ 8 := by
  have long := starts.long
  rw [starts.asUsize_eq]
  omega

theorem readI32_startup (input : s.input = startUp body ++ rest) :
    readI32 s = .ok (Int32.ofNat (body.length + 4)) { s with input := body ++ rest } := by
  apply readI32_append starts.short
  rw [input, startUp, List.append_assoc]

theorem readBody_startup (input : s.input = body ++ rest) :
    readBody (asUsize (Int32.ofNat (body.length + 4))) s = .ok body { s with input := rest } := by
  rw [starts.asUsize_eq]
  exact readBody_append rfl starts.short input

/-- The start-up message goes through where TLS is optional. -/
theorem negotiateStream_startup {tls : TlsSettings} (optional : tls.requireTls = false)
    (input : s.input = startUp body ++ rest) : negotiateStream tls none s = .ok false s := by
  unfold negotiateStream
  rw [bind_of_ok (readI32_startup starts input)]
  dsimp only
  rw [if_neg starts.ne_eight, optional, if_neg Bool.false_ne_true,
    bind_of_ok (readBody_startup starts rfl), starts.asUsize_eq]
  change EStateM.Result.ok false { s with input := startUp body ++ rest } = _
  rw [← input]

/-- It is refused where TLS is required. -/
theorem negotiateStream_refused {tls : TlsSettings} (required : tls.requireTls = true)
    (quiet : s.outages = []) (input : s.input = startUp body ++ rest) :
    ∃ after, negotiateStream tls none s =
        .error (.error "plaintext connection rejected: require_tls=true") after ∧
      after.trace = s.trace ++
        [.message 'E'.toUInt8 ('M'.toUInt8 :: utf8Bytes "SSL required" ++ [0, 0])] := by
  let heard : ConnState := { s with input := body ++ rest }
  have sent := @sendMessage_quiet heard quiet 'E'
    ('M'.toUInt8 :: utf8Bytes "SSL required" ++ [0, 0])
  refine ⟨{ heard with trace := heard.trace ++
    [.message 'E'.toUInt8 ('M'.toUInt8 :: utf8Bytes "SSL required" ++ [0, 0])] }, ?_, rfl⟩
  unfold negotiateStream
  rw [bind_of_ok (readI32_startup starts input)]
  dsimp only
  rw [if_neg starts.ne_eight, required, if_pos rfl]
  exact bind_of_ok sent

/-- `run_session` behind the start-up message. -/
theorem enterSession_startup (plain : server.tlsAcceptor = none)
    (optional : server.tls.requireTls = false) (input : s.input = startUp body ++ rest) :
    enterSession around server nonce s = (do
        if server.auth.required && !false && server.auth.requireTlsForPassword &&
            !server.auth.scramAvailable then
          sendError "password authentication requires TLS"
          return false
        else
          if ← admitClient around server.auth nonce then
            welcome
            return true
          else return false : ConnM Bool)
      { s with input := rest, trace := s.trace ++ [.entered false] } := by
  let noted : ConnState := { s with trace := s.trace ++ [.entered false] }
  have noting : emit (ConnEvent.entered false) s = .ok () noted := rfl
  have length := @readI32_startup noted body rest starts input
  have taken := @readBody_startup { noted with input := body ++ rest } body rest starts rfl
  obtain ⟨version, read⟩ := getI32_eq_ok_iff.mpr starts.long.le
  unfold enterSession
  rw [plain, bind_of_ok (negotiateStream_startup starts optional input), bind_of_ok noting,
    bind_of_ok length]
  refine (bind_of_ok taken).trans ?_
  rw [read]
  rfl

/-- A server that asks for nothing lets the client in. -/
theorem enterSession_trusting (plain : server.tlsAcceptor = none)
    (optional : server.tls.requireTls = false) (trusts : server.auth.required = false)
    (db : Database) (rest : List UInt8) :
    enterSession around server nonce { newConnection db with input := startUp body ++ rest } =
      .ok true (enteredSession db rest) := by
  rw [enterSession_startup around nonce starts plain optional rfl]
  unfold admitClient
  rw [trusts]
  rfl

variable [Runtime]

/-- A client that starts up without asking for TLS is served as if there were none. -/
theorem served_withoutTls (start : ConnState) {received rest : List UInt8}
    (begins : received <+: startUp body ++ rest) :
    served around server nonce start received =
      served around server.withoutTls nonce start received := by
  let s : ConnState := { start with input := received }
  have same : negotiateStream server.tls server.tlsAcceptor s =
      negotiateStream server.tls none s := by
    unfold negotiateStream
    cases read : readI32 s with
    | error e after => simp only [Bind.bind, EStateM.bind, read]
    | ok len after =>
        have length : asUsize len ≠ 8 := by
          obtain ⟨enough, number, -⟩ := readI32_eq_ok.mp read
          have first : s.input.take 4 = toBeBytes 4 (body.length + 4) := by
            obtain ⟨more, whole⟩ := begins
            have taken := congrArg (List.take 4) whole
            rw [List.take_append_of_le_length enough, startUp, List.append_assoc,
              List.take_left' (toBeBytes_length 4 _)] at taken
            exact taken
          rw [nextLength, first, (Client.readLength starts.short).1] at number
          rw [Int32.toInt_inj.mp number]
          exact starts.ne_eight
        rw [bind_of_ok read, bind_of_ok read]
        dsimp only
        rw [if_neg length, if_neg length]
  change finalState (negotiateStream server.tls server.tlsAcceptor >>= _) s =
    finalState (negotiateStream server.tls none >>= _) s
  simp only [finalState, Bind.bind, EStateM.bind, same]
  rfl

/-- What the server has done for such a client stands. -/
theorem served_startup_grows (start : ConnState) {received more rest : List UInt8}
    (begins : more <+: startUp body ++ rest) (later : received <+: more) :
    (served around server nonce start received).trace <+:
      (served around server nonce start more).trace := by
  rw [served_withoutTls around nonce starts start begins,
    served_withoutTls around nonce starts start (later.trans begins)]
  exact served_grows around nonce rfl start later

theorem growsUpTo_serverSends (start : ConnState) {sent rest : List UInt8}
    (begins : sent <+: startUp body ++ rest) :
    GrowsUpTo (serverSends around server nonce start) sent := by
  intro received more later within
  obtain ⟨events, happens⟩ :=
    served_startup_grows around nonce starts start (within.trans begins) later
  refine ⟨wireBytes events, ?_⟩
  unfold serverSends
  rw [← happens, wireBytes, wireBytes, wireBytes, List.flatMap_append]

/-- A server that asks for TLS or for a password has answered the start-up message with one
message. -/
theorem served_startup_refused
    (asks : server.tls.requireTls = true ∨ server.auth.required = true) (db : Database) :
    ∃ before, (served around server nonce (newConnection db) (startUp body)).trace =
        before ++ [server.refusal] ∧ before ⊆ [.entered false] := by
  let s : ConnState := { newConnection db with input := startUp body }
  have input : s.input = startUp body ++ [] := (List.append_nil _).symm
  rw [served_withoutTls around nonce starts (newConnection db) (List.prefix_append _ [])]
  change ∃ before, (finalState (handleConnection around server.withoutTls nonce) s).trace = _ ∧ _
  unfold Server.refusal
  rw [handleConnection_eq]
  cases tls : server.tls.requireTls with
  | true =>
      obtain ⟨after, refused, trace⟩ := negotiateStream_refused starts tls rfl input
      have ends : enterSession around server.withoutTls nonce s =
          .error (.error "plaintext connection rejected: require_tls=true") after :=
        bind_eq_error.mpr (.inl refused)
      rw [finalState_bind_of_error ends]
      exact ⟨[], trace.trans (by rw [if_pos rfl]; rfl), List.nil_subset _⟩
  | false =>
      have required : server.auth.required = true := asks.resolve_left (by rw [tls]; decide)
      have entered := @enterSession_startup around server.withoutTls nonce s body [] starts rfl
        tls input
      change enterSession around server.withoutTls nonce s = (do
        if server.auth.required && !false && server.auth.requireTlsForPassword &&
            !server.auth.scramAvailable then _ else _ : ConnM Bool) _ at entered
      rw [required, Bool.true_and, Bool.not_false, Bool.true_and] at entered
      rw [if_neg Bool.false_ne_true]
      cases refuses : server.auth.requireTlsForPassword && !server.auth.scramAvailable with
      | true =>
          rw [refuses, if_pos rfl] at entered
          let noted : ConnState := { s with input := [], trace := [.entered false] }
          have sent := @sendMessage_quiet noted rfl 'E'
            ('M'.toUInt8 :: utf8Bytes "password authentication requires TLS" ++ [0, 0])
          rw [finalState_bind_of_ok (entered.trans (bind_of_ok sent))]
          rw [if_pos rfl]
          exact ⟨[.entered false], rfl, List.Subset.refl _⟩
      | false =>
          rw [refuses, if_neg Bool.false_ne_true] at entered
          let noted : ConnState := { s with input := [], trace := [.entered false] }
          obtain ⟨after, waits, trace⟩ :=
            @admitClient_waits around nonce noted _ required rfl rfl
          rw [finalState_bind_of_error (entered.trans (bind_eq_error.mpr (.inl waits)))]
          rw [if_neg Bool.false_ne_true]
          exact ⟨[.entered false], trace, List.Subset.refl _⟩

/-- That is what it has sent, and nothing has been executed. -/
theorem serverSends_refused (db : Database)
    (asks : server.tls.requireTls = true ∨ server.auth.required = true) :
    serverSends around server nonce (newConnection db) (startUp body) =
        wireBytes [server.refusal] ∧
      executions (served around server nonce (newConnection db) (startUp body)) = [] := by
  obtain ⟨before, trace, few⟩ := served_startup_refused around nonce starts asks db
  obtain ⟨tag, told, refusal, -⟩ := server.refusal_message
  have silent : wireBytes before = [] := by
    apply List.flatMap_eq_nil_iff.mpr
    intro event member
    rw [List.mem_singleton.mp (few member)]
    rfl
  constructor
  · unfold wireBytes at silent
    unfold serverSends wireBytes
    rw [trace, List.flatMap_append, silent, List.nil_append]
  · apply List.filterMap_eq_nil_iff.mpr
    intro event member
    rw [trace, refusal] at member
    rcases List.mem_append.mp member with early | last
    · rw [List.mem_singleton.mp (few early)]
    · rw [List.mem_singleton.mp last]

end Entering

section Rounds

variable [Runtime] (around : Surroundings) {server : Server} (nonce : List UInt8)

theorem messageLoop_nil (fuel : Nat) {s : ConnState} (empty : s.input = []) :
    finalState (messageLoop around fuel) s = s := by
  cases fuel with
  | zero => rfl
  | succ fuel =>
      have waits : readMessage s = .ok none s := by
        unfold readMessage
        rw [get_bind, if_pos empty]
        rfl
      rw [messageLoop, finalState_bind_of_ok waits]
      rfl

/-- A session answers what comes behind the start-up message. -/
theorem served_trusting {body : List UInt8} (starts : StartsUp body)
    (optional : server.tls.requireTls = false) (trusts : server.auth.required = false)
    (db : Database) (rest : List UInt8) :
    served around server nonce (newConnection db) (startUp body ++ rest) =
      finalState (messageLoop around (rest.length + 1)) (enteredSession db rest) := by
  have entered := @enterSession_trusting around server.withoutTls nonce body starts rfl optional
    trusts db rest
  rw [served_withoutTls around nonce starts (newConnection db) List.prefix_rfl]
  unfold served
  rw [handleConnection_eq, finalState_bind_of_ok entered]
  rfl

/-- That is the welcome, and nothing has been executed. -/
theorem serverSends_trusting {body : List UInt8} (starts : StartsUp body)
    (optional : server.tls.requireTls = false) (trusts : server.auth.required = false)
    (db : Database) :
    serverSends around server nonce (newConnection db) (startUp body) =
        wireBytes welcomeMessages ∧
      executions (served around server nonce (newConnection db) (startUp body)) = [] := by
  have entered := served_trusting around nonce starts optional trusts db []
  rw [List.append_nil, messageLoop_nil around _ rfl] at entered
  unfold serverSends
  rw [entered]
  exact ⟨rfl, rfl⟩

/-- The connection behind a text. -/
def answeredConnection (db : Database) (sql : String) (outcome : Except MoodengError QueryResult)
    (after : Executor) (rest : List UInt8) : ConnState where
  input := rest
  outages := []
  conn := answeredSession outcome after
  db := after.toDatabase
  trace := (enteredSession db []).trace ++
    [.received 'Q'.toUInt8 (utf8Bytes sql ++ [0])] ++ .executed sql :: answer outcome after

variable {db : Database} {sql : String} {outcome : Except MoodengError QueryResult}
  {after : Executor}

/-- The loop takes the `Query` message and goes on. -/
theorem messageLoop_query (present : sql ≠ "") (zeroFree : '\x00' ∉ sql.toList)
    (short : (utf8Bytes sql).length + 5 < 2 ^ 31) (preview : canPreview sql = true)
    (answered : Answered around db sql outcome after) (fuel : Nat) (rest : List UInt8) :
    finalState (messageLoop around (fuel + 1)) (enteredSession db (queryMessage sql ++ rest)) =
      finalState (messageLoop around fuel) (answeredConnection db sql outcome after rest) := by
  let s := enteredSession db (queryMessage sql ++ rest)
  have size : (utf8Bytes sql ++ [0]).length = (utf8Bytes sql).length + 1 :=
    List.length_append
  have framed : s.input = 'Q'.toUInt8 :: (toBeBytes 4 ((utf8Bytes sql ++ [0]).length + 4) ++
      ((utf8Bytes sql ++ [0]) ++ rest)) := by
    change queryMessage sql ++ rest = _
    rw [size, queryMessage]
    simp only [List.cons_append, List.append_assoc]
  have read := readMessage_append (by rw [size]; omega) framed
  let heard : ConnState := { s with
    input := rest
    trace := s.trace ++ [.received 'Q'.toUInt8 (utf8Bytes sql ++ [0])] }
  have handled := @handleMessage_query _ around heard rfl rfl sql present zeroFree preview
    outcome after answered
  rw [messageLoop, finalState_bind_of_ok read]
  dsimp only
  rw [finalState_bind_of_ok handled]
  rfl

theorem served_query (optional : server.tls.requireTls = false)
    (trusts : server.auth.required = false)
    (present : sql ≠ "") (zeroFree : '\x00' ∉ sql.toList)
    (short : (utf8Bytes sql).length + 5 < 2 ^ 31) (preview : canPreview sql = true)
    (answered : Answered around db sql outcome after) :
    served around server nonce (newConnection db) (startupMessage ++ queryMessage sql) =
      answeredConnection db sql outcome after [] := by
  have handled := messageLoop_query around present zeroFree short preview answered
    (queryMessage sql).length []
  rw [List.append_nil] at handled
  rw [startupMessage_eq, served_trusting around nonce startupBody_startsUp optional trusts, handled]
  exact messageLoop_nil around _ rfl

/-- `Terminate` ends the loop. -/
theorem served_terminate (optional : server.tls.requireTls = false)
    (trusts : server.auth.required = false)
    (present : sql ≠ "") (zeroFree : '\x00' ∉ sql.toList)
    (short : (utf8Bytes sql).length + 5 < 2 ^ 31) (preview : canPreview sql = true)
    (answered : Answered around db sql outcome after) :
    served around server nonce (newConnection db)
        (startupMessage ++ (queryMessage sql ++ Client.terminateMessage)) =
      { answeredConnection db sql outcome after [] with
        trace := (answeredConnection db sql outcome after []).trace ++
          [.received 'X'.toUInt8 []] } := by
  let s := answeredConnection db sql outcome after Client.terminateMessage
  have framed : s.input =
      'X'.toUInt8 :: (toBeBytes 4 (([] : List UInt8).length + 4) ++ ([] ++ [])) := rfl
  have read := readMessage_append (by decide) framed
  have length : (queryMessage sql ++ Client.terminateMessage).length =
      (queryMessage sql).length + 4 + 1 := by
    rw [List.length_append]
    rfl
  rw [startupMessage_eq, served_trusting around nonce startupBody_startsUp optional trusts, length,
    messageLoop_query around present zeroFree short preview answered, messageLoop,
    finalState_bind_of_ok read]
  rfl

end Rounds

end MoodengSQL
