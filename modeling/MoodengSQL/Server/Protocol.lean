import MoodengSQL.Log.Bytes
import MoodengSQL.Server.Session
import MoodengSQL.Server.Settings

/-!
# The wire protocol

A connection as the server runs it: the choice between TLS and plain text, the
start-up message, authentication, and the loop over the client's messages. The
client is the list of bytes it sends; its end, or a failing read, is an error of
the next read, and any write may fail. What happens on the connection is kept
as a list of events.
-/

namespace MoodengSQL

/-- `SSL_REQUEST_CODE`. -/
def SSL_REQUEST_CODE : Int32 := 80877103

/-- What happens on a connection: a byte or a message the server starts to send,
a TLS handshake that succeeded, the entry into `run_session`, a password checked
against the stored hash, a SCRAM exchange finished, a message of the client
processed, a text executed. -/
inductive ConnEvent where
  | byte (byte : UInt8)
  | message (tag : UInt8) (body : List UInt8)
  | secured
  | entered (encrypted : Bool)
  | verified (password : String)
  | finished (session : ScramSession) (clientFinal : String)
  | received (tag : UInt8) (payload : List UInt8)
  | executed (sql : String)
  deriving DecidableEq

/-- A connection: the bytes the client still sends, whether each coming write
fails, the session, the database, and the events so far. -/
structure ConnState where
  input : List UInt8
  outages : List Bool
  conn : ConnectionSession
  db : Database
  trace : List ConnEvent

/-- Computations of a connection's task. -/
abbrev ConnM := EStateM ServerFailure ConnState

namespace ConnM

/-- A result computed without touching the connection. -/
def lift {α : Type} (result : Except ServerFailure α) : ConnM α :=
  match result with
  | .ok a => pure a
  | .error e => throw e

/-- Note an event. -/
def emit (event : ConnEvent) : ConnM Unit :=
  modify fun s => { s with trace := s.trace ++ [event] }

/-- `read_exact`: what is there is gone when there is too little. -/
def readExact (n : Nat) : ConnM (List UInt8) := fun s =>
  if n ≤ s.input.length then .ok (s.input.take n) { s with input := s.input.drop n }
  else .error (.error "early eof") { s with input := [] }

/-- `write_all`. -/
def writeAll : ConnM Unit := fun s =>
  match s.outages with
  | true :: rest => .error (.error "broken pipe") { s with outages := rest }
  | false :: rest => .ok () { s with outages := rest }
  | [] => .ok () s

/-- Go on inside TLS. -/
def acceptTls (accept : TlsAcceptor) : ConnM Unit := fun s =>
  match accept s.input with
  | some input => .ok () { s with input, trace := s.trace ++ [.secured] }
  | none => .error (.error "TLS handshake failed") { s with input := [] }

/-- The prefix of a `PrefixedStream`. -/
def pushBack (bytes : List UInt8) : ConnM Unit :=
  modify fun s => { s with input := bytes ++ s.input }

/-- Change what the server keeps for the connection. -/
def modifyConn (f : ConnectionSession → ConnectionSession) : ConnM Unit :=
  modify fun s => { s with conn := f s.conn }

/-- `execute_session` with the session of the connection. -/
def executeSql [Runtime] (around : Surroundings) (sql : String) :
    ConnM (Except MoodengError QueryResult) := fun s =>
  let keep : Executor → ConnState := fun after =>
    { s with
      conn := { s.conn with session := after.session }
      db := after.toDatabase
      trace := s.trace ++ [.executed sql] }
  match executeText (around.parseSql sql) { s.db with session := s.conn.session } with
  | .ok result after => .ok (.ok result) (keep after)
  | .error (.error e) after => .ok (.error e) (keep after)
  | .error (.panic reason) after => .error (.panic reason) (keep after)

end ConnM

open ConnM

section Reading

/-- `read_u8`. -/
def readU8 : ConnM UInt8 := do
  let bytes ← readExact 1
  return bytes.headD 0

/-- `read_i32`. -/
def readI32 : ConnM Int32 := do
  let bytes ← readExact 4
  return Int32.ofNat (fromBeBytes bytes)

/-- `as usize`. -/
def asUsize (n : Int32) : Nat := (n.toInt % 2 ^ 64).toNat

/-- `vec![0u8; len.saturating_sub(4)]`, filled by `read_exact`. A vector of more
than `isize::MAX` bytes panics. -/
def readBody (len : Nat) : ConnM (List UInt8) :=
  if 2 ^ 63 ≤ len - 4 then throw (.panic "capacity overflow")
  else readExact (len - 4)

/-- `Buf::get_i32`. -/
def getI32 (cur : List UInt8) : Except ServerFailure (Int32 × List UInt8) :=
  if 4 ≤ cur.length then .ok (Int32.ofNat (fromBeBytes (cur.take 4)), cur.drop 4)
  else .error (.panic "advance out of bounds")

/-- `Buf::get_i16`. -/
def getI16 (cur : List UInt8) : Except ServerFailure (Int16 × List UInt8) :=
  if 2 ≤ cur.length then .ok (Int16.ofNat (fromBeBytes (cur.take 2)), cur.drop 2)
  else .error (.panic "advance out of bounds")

end Reading

section Sending

/-- `send_message`: three writes. -/
def sendMessage (tag : Char) (body : List UInt8) : ConnM Unit := do
  emit (.message tag.toUInt8 body)
  writeAll
  writeAll
  writeAll

/-- `write_u8`, outside of a message. -/
def writeU8 (byte : Char) : ConnM Unit := do
  emit (.byte byte.toUInt8)
  writeAll

/-- `send_error`. -/
def sendError (msg : String) : ConnM Unit :=
  sendMessage 'E' ('M'.toUInt8 :: utf8Bytes msg ++ [0, 0])

/-- `send_ready`. -/
def sendReady : ConnM Unit := do
  let s ← get
  sendMessage 'Z' [s.conn.readyStatus]

variable [Runtime]

/-- A value in a `DataRow` message. -/
def encodeValue (value : Value) : List UInt8 :=
  if value.isNull then toBeBytes 4 (2 ^ 32 - 1)
  else
    let bytes := utf8Bytes value.toDisplayString
    toBeBytes 4 bytes.length ++ bytes

/-- A column in a `RowDescription` message. -/
def encodeColumn (column : String) : List UInt8 :=
  utf8Bytes column ++ 0 :: toBeBytes 4 0 ++ toBeBytes 2 0 ++ toBeBytes 4 (2 ^ 32 - 1) ++
    toBeBytes 2 0

/-- The `DataRow` messages of `send_query_result`. -/
def sendRows : List Row → ConnM Unit
  | [] => pure ()
  | row :: rest => do
      sendMessage 'D' (toBeBytes 2 row.values.length ++ row.values.flatMap encodeValue)
      sendRows rest

/-- `send_query_result`. -/
def sendQueryResult (result : QueryResult) : ConnM Unit :=
  if result.rows = [] then
    sendMessage 'C'
      (utf8Bytes (result.message.getD (toString result.rowsAffected ++ " 0")) ++ [0])
  else do
    sendMessage 'T' (toBeBytes 2 result.columns.length ++ result.columns.flatMap encodeColumn)
    sendRows result.rows
    sendMessage 'C' (utf8Bytes ("SELECT " ++ toString result.rows.length) ++ [0])

end Sending

section Negotiation

/-- `negotiate_stream`: whether the connection is encrypted. -/
def negotiateStream (tls : TlsSettings) (acceptor : Option TlsAcceptor) : ConnM Bool := do
  let len := asUsize (← readI32)
  if len = 8 then
    let code ← readI32
    if code = SSL_REQUEST_CODE then
      match acceptor with
      | some accept =>
          writeU8 'S'
          acceptTls accept
          return true
      | none =>
          writeU8 'N'
          let startupLen := asUsize (← readI32)
          let startupBody ← readBody startupLen
          pushBack (toBeBytes 4 startupLen ++ startupBody)
          return false
    else throw (.error ("unexpected pre-startup message code " ++ toString code.toInt))
  else if tls.requireTls then
    sendError "SSL required"
    throw (.error "plaintext connection rejected: require_tls=true")
  else
    let startupBody ← readBody len
    pushBack (toBeBytes 4 len ++ startupBody)
    return false

end Negotiation

section Authentication

variable (around : Surroundings) (auth : AuthConfig)

/-- `verify`. -/
def AuthConfig.verify (password : String) : Bool :=
  match auth.passwordHash with
  | some hash => around.verifyPassword password hash
  | none => true

/-- `authenticate_cleartext`. -/
def authenticateCleartext : ConnM Bool := do
  sendMessage 'R' (toBeBytes 4 3)
  let msgType ← readU8
  if msgType ≠ 'p'.toUInt8 then
    sendError "expected password message"
    return false
  else
    let pwLen := asUsize (← readI32)
    let pwBuf ← readBody pwLen
    let password := readCstring pwBuf
    emit (.verified password)
    if !auth.verify around password then
      sendError "authentication failed"
      return false
    else return true

/-- `read_sasl_message`. -/
def readSaslMessage : ConnM (String × List UInt8) := do
  let msgType ← readU8
  if msgType ≠ 'p'.toUInt8 then
    throw (.error ("expected SASL password message, got " ++ toString msgType.toNat))
  else
    let msgLen := asUsize (← readI32)
    let payload ← readBody msgLen
    let (mechanism, cur) := readCstringBuf payload
    if cur.length < 4 then throw (.error "truncated SASL payload")
    else
      let (dataLen, cur) ← lift (getI32 cur)
      if dataLen < 0 then return (mechanism, [])
      else if cur.length < asUsize dataLen then throw (.error "truncated SASL response data")
      else return (mechanism, cur.take (asUsize dataLen))

/-- What an error of `finish` prints. -/
def ServerFailure.display : ServerFailure → String
  | .error message => message
  | .panic reason => reason

/-- `authenticate_scram`, with the nonce bytes the server draws. -/
def authenticateScram (nonce : List UInt8) : ConnM Bool := do
  sendMessage 'R' (toBeBytes 4 10 ++ utf8Bytes (SCRAM_SHA256 ++ "\x00\x00"))
  let (mechanism, clientFirst) ← readSaslMessage
  if mechanism ≠ "" ∧ mechanism ≠ SCRAM_SHA256 then
    sendError "unsupported SASL mechanism"
    return false
  else
    let clientFirst ← lift (okOr (fromUtf8 clientFirst) "invalid SCRAM client-first encoding")
    let creds ← lift (okOr auth.scramCredentials "SCRAM credentials not configured")
    let (session, serverFirst) ← lift (ScramSession.start around.crypto creds nonce clientFirst)
    sendMessage 'R' (toBeBytes 4 11 ++ utf8Bytes serverFirst ++ [0])
    let (_, clientFinal) ← readSaslMessage
    let clientFinal ← lift (okOr (fromUtf8 clientFinal) "invalid SCRAM client-final encoding")
    emit (.finished session clientFinal)
    match session.finish around.crypto clientFinal with
    | .ok serverFinal =>
        sendMessage 'R' (toBeBytes 4 12 ++ utf8Bytes serverFinal ++ [0])
        return true
    | .error e =>
        sendError ("authentication failed: " ++ e.display)
        return false

/-- `authenticate`. -/
def authenticate (nonce : List UInt8) : ConnM Bool :=
  if auth.scramAvailable then authenticateScram around auth nonce
  else authenticateCleartext around auth

/-- The authentication of `run_session`, where one is required. -/
def admitClient (nonce : List UInt8) : ConnM Bool :=
  if auth.required then authenticate around auth nonce else pure true

end Authentication

section Messages

/-- `handle_parse`. -/
def handleParse (payload : List UInt8) (conn : ConnectionSession) : ConnectionSession :=
  let (name, cur) := readCstringBuf payload
  let (sql, _) := readCstringBuf cur
  if name = "" then { conn with lastStatement := some sql }
  else { conn with prepared := conn.prepared.insert name sql }

/-- The parameter loop of `handle_bind`. A parameter that is cut short is left
out. -/
def bindParams : Nat → List UInt8 → Except ServerFailure (List (Option String))
  | 0, _ => .ok []
  | count + 1, cur =>
      if 4 ≤ cur.length then do
        let (len, cur) ← getI32 cur
        if len < 0 then return none :: (← bindParams count cur)
        else if asUsize len ≤ cur.length then
          return some (fromUtf8Lossy (cur.take (asUsize len))) ::
            (← bindParams count (cur.drop (asUsize len)))
        else bindParams count cur
      else bindParams count cur

/-- `handle_bind`. -/
def handleBind (payload : List UInt8) (conn : ConnectionSession) :
    Except ServerFailure ConnectionSession := do
  let (_, cur) := readCstringBuf payload
  let (statement, cur) := readCstringBuf cur
  let cur ← if 2 ≤ cur.length then (getI16 cur).map Prod.snd else .ok cur
  let conn ← if 2 ≤ cur.length then do
      let (count, cur) ← getI16 cur
      let params ← bindParams count.toInt.toNat cur
      .ok { conn with portalParams := params }
    else .ok conn
  if statement ≠ "" then
    match conn.prepared[statement]? with
    | some sql => return { conn with lastStatement := some sql }
    | none => return conn
  else return conn

variable [Runtime] (around : Surroundings)

/-- `run_sql`. -/
def runSql (sql : String) : ConnM Unit := do
  let _ ← lift (summarizeSql sql)
  match ← executeSql around sql with
  | .ok result =>
      modifyConn fun conn => { conn with inError := false }
      sendQueryResult result
  | .error e =>
      modifyConn fun conn => { conn with inError := true }
      sendError e.display

/-- `handle_execute`. -/
def handleExecute : ConnM Unit := do
  let s ← get
  let sql := s.conn.lastStatement.getD ""
  if sql = "" then return
  else runSql around (substituteParams sql s.conn.portalParams)

/-- The body of the message loop, for a message that has been read: whether the
loop goes on. -/
def handleMessage (msgType : UInt8) (payload : List UInt8) : ConnM Bool :=
  match Char.ofUInt8 msgType with
  | 'Q' => do
      let sql := readCstring payload
      if sql = "" then return true
      else
        runSql around sql
        sendReady
        return true
  | 'P' => do
      modifyConn (handleParse payload)
      return true
  | 'B' => do
      let s ← get
      let conn ← lift (handleBind payload s.conn)
      modifyConn fun _ => conn
      return true
  | 'E' => do
      handleExecute around
      return true
  | 'S' => do
      modifyConn fun conn => { conn with inError := false }
      sendReady
      return true
  | 'X' => return false
  | _ => return true

/-- The next message. There is none at the end of the input. -/
def readMessage : ConnM (Option (UInt8 × List UInt8)) := do
  let s ← get
  if s.input = [] then return none
  else
    let msgType ← readU8
    let len := asUsize (← readI32)
    let payload ← readBody len
    emit (.received msgType payload)
    return some (msgType, payload)

/-- The message loop of `run_session`. A message has five bytes at least. -/
def messageLoop : Nat → ConnM Unit
  | 0 => pure ()
  | fuel + 1 => do
      match ← readMessage with
      | none => return
      | some (msgType, payload) =>
          if ← handleMessage around msgType payload then messageLoop fuel else return

/-- The parameters a session starts with, one message each. -/
def sendParameters : List (String × String) → ConnM Unit
  | [] => pure ()
  | (k, v) :: rest => do
      sendMessage 'S' (utf8Bytes k ++ 0 :: utf8Bytes v ++ [0])
      sendParameters rest

/-- The start of a session: authentication is over. -/
def welcome : ConnM Unit := do
  sendMessage 'R' (toBeBytes 4 0)
  sendParameters [("server_version", "16.0-moodeng"), ("server_encoding", "UTF8"),
    ("client_encoding", "UTF8")]
  sendMessage 'Z' ['I'.toUInt8]
  modifyConn fun _ => .new

/-- `run_session`. -/
def runSession (auth : AuthConfig) (nonce : List UInt8) (encrypted : Bool) : ConnM Unit := do
  emit (.entered encrypted)
  let len := asUsize (← readI32)
  let buf ← readBody len
  let _ ← lift (getI32 buf)
  if auth.required && !encrypted && auth.requireTlsForPassword && !auth.scramAvailable then
    sendError "password authentication requires TLS"
  else
    if ← admitClient around auth nonce then
      welcome
      let s ← get
      messageLoop around (s.input.length + 1)

/-- `handle_connection`. -/
def handleConnection (server : Server) (nonce : List UInt8) : ConnM Unit := do
  let encrypted ← negotiateStream server.tls server.tlsAcceptor
  runSession around server.auth nonce encrypted

end Messages

end MoodengSQL
