import MoodengSQL.Server.Answers

/-!
# A text from the command line to the engine and back

The command-line client and the server, over a connection that delivers what both send in
pieces, at any time. What the deliveries lead to does not depend on their order.
-/

namespace MoodengSQL

open Foundation Foundation.Conversation Effect ConnM Relation

section Outputs

variable {tag status : UInt8} {body : List UInt8}

/-- The output for an answer of one message. -/
theorem output_message {shown : Shown} (notReady : tag ≠ 'Z'.toUInt8)
    (short : body.length + 4 < 2 ^ 31) (shows : Client.showMessage tag body = .ok (some shown)) :
    Client.output (wireBytes [.message tag body, .message 'Z'.toUInt8 [status]]) =
      .ok shown.text := by
  have length : ∃ fuel, (wireBytes [.message tag body, .message 'Z'.toUInt8 [status]]).length =
      fuel + 1 + 1 := by
    refine ⟨(wireBytes [.message tag body, .message 'Z'.toUInt8 [status]]).length - 2, ?_⟩
    simp only [wireBytes, List.flatMap_cons, List.flatMap_nil, ConnEvent.wireBytes,
      List.append_nil, List.cons_append, List.length_cons, List.length_append, toBeBytes_length]
    omega
  obtain ⟨fuel, length⟩ := length
  have ready : Client.messageLoop (fuel + 1)
      ((ConnEvent.message 'Z'.toUInt8 [status]).wireBytes ++ []) = .ok ([], []) :=
    Client.messageLoop_ready (by rw [List.length_singleton]; omega) fuel []
  unfold Client.output Client.readResponse
  rw [length, wireBytes, List.flatMap_cons, List.flatMap_cons, List.flatMap_nil,
    Client.messageLoop_message notReady short shows, ready]
  simp [Except.map, Bind.bind, Except.bind, String.join, pure, Except.pure]

/-- An error is shown with its text. -/
theorem showMessage_error {text : String} (zeroFree : '\x00' ∉ text.toList) :
    Client.showMessage 'E'.toUInt8 ('M'.toUInt8 :: utf8Bytes text ++ [0, 0]) =
      .ok (some (.error text)) := by
  have apart : 0 ∉ 'M'.toUInt8 :: utf8Bytes text := by
    rw [List.mem_cons, not_or]
    exact ⟨by decide, zero_not_mem_utf8Bytes zeroFree⟩
  have found := @Client.findIdx_zero _ [0] apart
  have sliced := Client.slice_append ['M'.toUInt8] (utf8Bytes text) [0, 0]
  have branch : Char.ofUInt8 'E'.toUInt8 = 'E' := rfl
  unfold Client.showMessage
  rw [branch]
  simp only [found, List.length_cons]
  rw [List.length_singleton, Nat.add_comm 1] at sliced
  change (do return some (Shown.error (fromUtf8Lossy (← Client.slice _ 1 _)))) = _
  rw [show Client.slice ('M'.toUInt8 :: utf8Bytes text ++ [0, 0]) 1
    ((utf8Bytes text).length + 1) = _ from sliced]
  dsimp only [Bind.bind, Except.bind]
  rw [fromUtf8Lossy_utf8Bytes]
  rfl

variable [Runtime] (after : Executor)

/-- The output for an error is its text. -/
theorem output_error {e : MoodengError} (zeroFree : '\x00' ∉ e.display.toList)
    (short : (utf8Bytes e.display).length + 7 < 2 ^ 31) :
    Client.output (wireBytes (answer (.error e) after)) =
      .ok ("ERROR: " ++ e.display ++ "\n") := by
  apply output_message (by decide) _ (showMessage_error zeroFree)
  simp only [List.cons_append, List.length_cons, List.length_append, List.length_nil]
  omega

/-- The output for a result without rows is its tag. -/
theorem output_tag {result : QueryResult} (empty : result.rows = [])
    (zeroFree : '\x00' ∉ (result.message.getD (toString result.rowsAffected ++ " 0")).toList)
    (short : (utf8Bytes (result.message.getD
      (toString result.rowsAffected ++ " 0"))).length + 5 < 2 ^ 31) :
    Client.output (wireBytes (answer (.ok result) after)) =
      .ok (result.message.getD (toString result.rowsAffected ++ " 0") ++ "\n") := by
  rw [answer, answerMessages, if_pos empty]
  apply output_message (by decide) _ (Client.showMessage_tag zeroFree)
  rw [List.length_append, List.length_singleton]
  omega

end Outputs

section Dialogue

variable [Runtime] (around : Surroundings) {server : Server} (nonce : List UInt8)
  {db : Database} {sql : String} {outcome : Except MoodengError QueryResult} {after : Executor}

omit [Runtime] in
theorem readUntilReady_welcome (rest : List UInt8) :
    Client.readUntilReady (wireBytes welcomeMessages ++ rest) = .ok rest := by
  have welcomed : Client.readUntilReady (wireBytes welcomeMessages) = .ok [] := rfl
  exact Client.readUntilReady_feed welcomed

/-- The bytes of the whole answer. -/
theorem wireBytes_answered (rest : List UInt8) :
    wireBytes (answeredConnection db sql outcome after rest).trace =
      wireBytes welcomeMessages ++ wireBytes (answer outcome after) := by
  simp only [answeredConnection, enteredSession, wireBytes, List.flatMap_append,
    List.flatMap_cons, List.flatMap_nil, ConnEvent.wireBytes, List.nil_append, List.append_nil]

/-- What the client has sent in the end: `Terminate` too, if it could read the answer. -/
theorem executeSqlSends_answered :
    Client.executeSqlSends sql (wireBytes welcomeMessages ++ wireBytes (answer outcome after)) =
        startupMessage ++ queryMessage sql ∨
      Client.executeSqlSends sql (wireBytes welcomeMessages ++ wireBytes (answer outcome after)) =
        startupMessage ++ (queryMessage sql ++ Client.terminateMessage) := by
  unfold Client.executeSqlSends
  rw [readUntilReady_welcome]
  dsimp only
  cases Client.readResponse (wireBytes (answer outcome after)) with
  | error e =>
      rw [List.append_nil]
      exact .inl rfl
  | ok shown => exact .inr rfl

/-- An answer is made of messages. -/
theorem message_of_mem_answer {event : ConnEvent} (member : event ∈ answer outcome after) :
    ∃ tag body, event = .message tag body := by
  unfold answer answerMessages at member
  rcases List.mem_append.mp member with told | ready
  · cases outcome with
    | ok result =>
        dsimp only at told
        split at told
        · exact ⟨_, _, List.mem_singleton.mp told⟩
        · rcases List.mem_append.mp told with described | tag
          · rcases List.mem_cons.mp described with described | row
            · exact ⟨_, _, described⟩
            · obtain ⟨row, -, rfl⟩ := List.mem_map.mp row
              exact ⟨_, _, rfl⟩
          · exact ⟨_, _, List.mem_singleton.mp tag⟩
    | error e => exact ⟨_, _, List.mem_singleton.mp told⟩
  · exact ⟨_, _, List.mem_singleton.mp ready⟩

/-- The text has been executed once. -/
theorem executions_answered (rest : List UInt8) :
    executions (answeredConnection db sql outcome after rest) = [sql] := by
  let told : ConnState := { enteredSession db rest with trace := answer outcome after }
  have silent := @executions_messages told fun _ member => message_of_mem_answer member
  unfold executions at silent ⊢
  unfold answeredConnection
  rw [List.filterMap_append, List.filterMap_cons]
  dsimp only [told] at silent ⊢
  rw [silent]
  rfl

omit [Runtime] in
/-- Behind the welcome the client asks. -/
theorem executeSqlSends_welcome : Client.executeSqlSends sql (wireBytes welcomeMessages) =
    startupMessage ++ queryMessage sql := by
  have ready := readUntilReady_welcome []
  rw [List.append_nil] at ready
  rw [Client.executeSqlSends, ready]
  exact congrArg _ (List.append_nil _)

/-- The end of the conversation: what the client has sent by then is answered already, and the
text has been executed once. -/
theorem served_executeSqlSends (optional : server.tls.requireTls = false)
    (trusts : server.auth.required = false) (present : sql ≠ "") (zeroFree : '\x00' ∉ sql.toList)
    (short : (utf8Bytes sql).length + 5 < 2 ^ 31) (preview : canPreview sql = true)
    (answered : Answered around db sql outcome after) {received : List UInt8}
    (whole : received = wireBytes welcomeMessages ++ wireBytes (answer outcome after)) :
    let ended := served around server nonce (newConnection db)
      (Client.executeSqlSends sql received)
    wireBytes ended.trace = received ∧ executions ended = [sql] ∧ ended.db = after.toDatabase := by
  subst whole
  intro ended
  have bytes := @wireBytes_answered _ db sql outcome after []
  have once := @executions_answered _ db sql outcome after []
  -- `Terminate` is sent only behind an answer that the client could read
  rcases @executeSqlSends_answered _ sql outcome after with stays | leaves
  · have same : ended = answeredConnection db sql outcome after [] := by
      dsimp only [ended]
      rw [stays]
      exact served_query around nonce optional trusts present zeroFree short preview answered
    rw [same]
    exact ⟨bytes, once, rfl⟩
  · have same : ended = { answeredConnection db sql outcome after [] with
        trace := (answeredConnection db sql outcome after []).trace ++
          [.received 'X'.toUInt8 []] } := by
      dsimp only [ended]
      rw [leaves]
      exact served_terminate around nonce optional trusts present zeroFree short preview answered
    rw [same]
    refine ⟨?_, ?_, rfl⟩
    · unfold wireBytes at bytes ⊢
      rw [List.flatMap_append, bytes]
      exact List.append_nil _
    · unfold executions at once ⊢
      rw [List.filterMap_append, once]
      rfl

/-- **A text makes its way, whatever the deliveries.** The server requires neither TLS nor a
password, and the engine does not panic on the text. From every point of the conversation
it comes to the same end: the text has been executed once, in a session of its own, and
the client has the whole answer. Before the end it has been executed once or not at all,
and the client shows nothing else. -/
theorem executeSql_settles (optional : server.tls.requireTls = false)
    (trusts : server.auth.required = false) (present : sql ≠ "") (zeroFree : '\x00' ∉ sql.toList)
    (short : (utf8Bytes sql).length + 5 < 2 ^ 31) (preview : canPreview sql = true)
    (answered : Answered around db sql outcome after) :
    let client := Client.executeSqlSends sql
    let serves := serverSends around server nonce (newConnection db)
    ∃ final, Settled client serves final ∧
      executions (served around server nonce (newConnection db) final.toServer) = [sql] ∧
      (served around server nonce (newConnection db) final.toServer).db = after.toDatabase ∧
      Client.executeSql final.toClient = Client.output (wireBytes (answer outcome after)) ∧
      ∀ t, Reached client serves t → ReflTransGen (Delivers client serves) t final ∧
        executions (served around server nonce (newConnection db) t.toServer) <+: [sql] ∧
        ∀ text, Client.executeSql t.toClient = .ok text →
          Client.output (wireBytes (answer outcome after)) = .ok text := by
  intro client serves
  obtain ⟨received, whole⟩ : ∃ received, received = wireBytes welcomeMessages ++
    wireBytes (answer outcome after) := ⟨_, rfl⟩
  have clientGrows : GrowsUpTo client received :=
    fun _ _ later _ => Client.executeSqlSends_grows sql later
  have begins : ∃ rest, client received <+: startUp startupBody ++ rest := by
    rw [← startupMessage_eq]
    exact ⟨_, List.prefix_rfl⟩
  obtain ⟨rest, begins⟩ := begins
  have serverGrows : GrowsUpTo serves (client received) :=
    growsUpTo_serverSends around nonce startupBody_startsUp (newConnection db) begins
  have greeted : client [] = startupMessage := List.append_nil _
  have begun : serves startupMessage = wireBytes welcomeMessages := by
    rw [startupMessage_eq]
    exact (serverSends_trusting around nonce startupBody_startsUp optional trusts db).1
  have asks : client (wireBytes welcomeMessages) = startupMessage ++ queryMessage sql :=
    executeSqlSends_welcome
  have asked : serves (startupMessage ++ queryMessage sql) = received := by
    have query := served_query around nonce optional trusts present zeroFree short preview answered
    change wireBytes (served around server nonce (newConnection db) _).trace = _
    rw [query, whole]
    exact wireBytes_answered []
  have heard := served_executeSqlSends around nonce optional trusts present zeroFree short preview
    answered whole
  change serves (client received) = received ∧
    executions (served around server nonce (newConnection db) (client received)) = [sql] ∧
    (served around server nonce (newConnection db) (client received)).db = after.toDatabase at heard
  have shown : Client.executeSql received = Client.output (wireBytes (answer outcome after)) := by
    rw [whole, Client.executeSql, readUntilReady_welcome]
    rfl
  have later : startupMessage ++ queryMessage sql <+: client received := by
    rw [← asks]
    exact Client.executeSqlSends_grows sql (whole ▸ List.prefix_append _ _)
  clear_value client serves
  obtain ⟨quiet, once, stored⟩ := heard
  let final : Transcript UInt8 UInt8 := { toServer := client received, toClient := received }
  have settled : Settled client serves final := ⟨rfl, quiet.symm⟩
  have reached : Reached client serves final := by
    have first : Reached client serves { toServer := startupMessage, toClient := [] } :=
      Reached.serverHears .refl greeted List.nil_prefix
    have second := first.clientHears begun List.nil_prefix
    have third := second.serverHears asks (List.prefix_append _ _)
    have fourth := third.clientHears asked (whole ▸ List.prefix_append _ _)
    exact fourth.serverHears rfl later
  refine ⟨final, settled, once, stored, shown, fun t reached' => ?_⟩
  have within := reached'.within settled clientGrows serverGrows
  refine ⟨reached.settles settled clientGrows serverGrows reached', ?_, fun text shows => ?_⟩
  · rw [← once]
    exact executions_prefix
      (served_startup_grows around nonce startupBody_startsUp (newConnection db) begins within.1)
  · obtain ⟨more, same⟩ := within.2
    have fed : Client.executeSql (t.toClient ++ more) = .ok text := Client.executeSql_feed shows
    rw [same] at fed
    exact shown.symm.trans fed

/-- What the engine gives for the creation of a table. -/
def createdTable : EStateM.Result Failure Executor QueryResult :=
  @executeText Runtime.reference (threeTexts.parseSql "CREATE TABLE t (id INT PRIMARY KEY)")
    { Executor.fresh.toDatabase with session := .new }

/-- Whether a call gives a tag and no rows. -/
def givesTag (text : String) : EStateM.Result Failure Executor QueryResult → Bool
  | .ok result _ => decide (result.rows = []) && decide (result.message = some text)
  | .error _ _ => false

omit [Runtime] in
/-- The creation of a table from the command line. -/
theorem executeSql_settles_create :
    ∃ final, Settled (Client.executeSqlSends "CREATE TABLE t (id INT PRIMARY KEY)")
        (@serverSends Runtime.reference threeTexts openServer []
          (newConnection Executor.fresh.toDatabase)) final ∧
      Client.executeSql final.toClient = .ok "CREATE TABLE t\n" := by
  have gives : givesTag "CREATE TABLE t" createdTable = true := by decide +kernel
  cases ran : createdTable with
  | error e after =>
      rw [ran] at gives
      cases gives
  | ok result after =>
      rw [ran, givesTag, Bool.and_eq_true, decide_eq_true_eq, decide_eq_true_eq] at gives
      obtain ⟨empty, message⟩ := gives
      obtain ⟨final, settled, -, -, shown, -⟩ := @executeSql_settles Runtime.reference threeTexts
        openServer [] Executor.fresh.toDatabase "CREATE TABLE t (id INT PRIMARY KEY)" (.ok result)
        after rfl rfl (by decide) (by decide) (by decide) (by decide +kernel)
        (@Answered.result Runtime.reference _ _ _ _ _ ran)
      have output := @output_tag Runtime.reference after result empty
      rw [message, Option.getD_some] at output
      exact ⟨final, settled, shown.trans (output (by decide) (by decide))⟩

/-- **The client waits where TLS or a password is asked for.** From every point of the
conversation it comes to the same end, with the start-up message answered by one message;
at no point has the server executed anything, or the client got past its wait. -/
theorem executeSql_waits (asks : server.tls.requireTls = true ∨ server.auth.required = true)
    (db : Database) (sql : String) :
    let client := Client.executeSqlSends sql
    let serves := serverSends around server nonce (newConnection db)
    ∃ final tag body, Settled client serves final ∧ final.toServer = startupMessage ∧
      server.refusal = .message tag body ∧ tag ≠ 'Z'.toUInt8 ∧
      final.toClient = wireBytes [.message tag body] ∧
      ∀ t, Reached client serves t → ReflTransGen (Delivers client serves) t final ∧
        executions (served around server nonce (newConnection db) t.toServer) = [] ∧
        ∃ e, Client.readUntilReady t.toClient = .error e := by
  intro client serves
  obtain ⟨tag, body, refusal, notReady, short⟩ := server.refusal_message
  obtain ⟨answers, idle⟩ := serverSends_refused around nonce startupBody_startsUp db asks
  rw [← startupMessage_eq, refusal] at answers
  rw [← startupMessage_eq] at idle
  change serves startupMessage = _ at answers
  have begins : startupMessage <+: startUp startupBody ++ [] := by
    rw [← startupMessage_eq]
    exact List.prefix_append _ []
  obtain ⟨e, waits⟩ := Client.readUntilReady_message notReady short
  have stays : client (wireBytes [.message tag body]) = startupMessage := by
    change startupMessage ++ _ = _
    rw [waits]
    exact List.append_nil _
  have greeted : client [] = startupMessage := List.append_nil _
  have clientGrows : GrowsUpTo client (wireBytes [.message tag body]) :=
    fun _ _ later _ => Client.executeSqlSends_grows sql later
  have serverGrows : GrowsUpTo serves startupMessage :=
    growsUpTo_serverSends around nonce startupBody_startsUp (newConnection db) begins
  clear_value client serves
  let final : Transcript UInt8 UInt8 :=
    { toServer := startupMessage, toClient := wireBytes [.message tag body] }
  have settled : Settled client serves final := ⟨stays.symm, answers.symm⟩
  have reached : Reached client serves final := by
    have first : Reached client serves { toServer := startupMessage, toClient := [] } :=
      Reached.serverHears .refl greeted List.nil_prefix
    exact first.clientHears answers List.nil_prefix
  refine ⟨final, tag, body, settled, rfl, refusal, notReady, rfl, fun t reached' => ?_⟩
  have within := reached'.within settled clientGrows serverGrows
  refine ⟨reached.settles settled clientGrows serverGrows reached', ?_, ?_⟩
  · have grows : executions (served around server nonce (newConnection db) t.toServer) <+:
        executions (served around server nonce (newConnection db) startupMessage) :=
      executions_prefix
        (served_startup_grows around nonce startupBody_startsUp (newConnection db) begins within.1)
    rw [idle] at grows
    exact List.prefix_nil.mp grows
  · cases ready : Client.readUntilReady t.toClient with
    | error e => exact ⟨e, rfl⟩
    | ok rest =>
        obtain ⟨more, same⟩ := within.2
        have read : Client.readUntilReady (t.toClient ++ more) = .ok (rest ++ more) :=
          Client.readUntilReady_feed ready
        rw [same] at read
        cases waits.symm.trans read

/-- A server with a password. -/
def passwordOnly : Server :=
  { openServer with auth := { openServer.auth with passwordHash := some "hash of secret" } }

omit [Runtime] in
/-- It keeps the client waiting. -/
theorem executeSql_waits_password :
    ∃ final, Settled (Client.executeSqlSends "SELECT 1")
        (@serverSends Runtime.reference threeTexts passwordOnly []
          (newConnection Executor.fresh.toDatabase)) final ∧
      final.toServer = startupMessage ∧
      final.toClient = wireBytes [.message 'R'.toUInt8 (toBeBytes 4 3)] := by
  have asks : passwordOnly.auth.required = true := rfl
  have question : passwordOnly.refusal = .message 'R'.toUInt8 (toBeBytes 4 3) := rfl
  obtain ⟨final, tag, body, settled, stays, refusal, -, answer, -⟩ := @executeSql_waits
    Runtime.reference threeTexts passwordOnly [] (.inr asks) Executor.fresh.toDatabase "SELECT 1"
  refine ⟨final, settled, stays, ?_⟩
  rw [answer, ← refusal, question]

end Dialogue

end MoodengSQL
