import MoodengSQL.Server.Dialogue

/-!
# The health check

`ping` of the server's own command line: a client that starts up, gives its password if
it is asked for one in clear text, and waits for `ReadyForQuery`. The bytes of a message
are read as the other client reads them. It succeeds exactly against servers that let it
in without TLS and without SCRAM.
-/

namespace MoodengSQL

open Foundation Foundation.Conversation Effect ConnM Relation

namespace Ping

section Reading

/-- The start-up message behind its length. No byte ends the parameters. -/
def startupBody : List UInt8 := toBeBytes 4 196608 ++ utf8Bytes "user\x00moodeng\x00"

theorem startupBody_startsUp : StartsUp startupBody := ⟨by decide, by decide⟩

/-- What `read_until_auth_ready` does at a message: it returns, gives the password and goes
on, or goes on. -/
inductive AuthStep where
  | returns (ready : Bool)
  | givesPassword
  | goesOn
  deriving DecidableEq

/-- The `match` of `read_until_auth_ready`. -/
def authStep (msgType : UInt8) (payload : List UInt8) : AuthStep :=
  match Char.ofUInt8 msgType with
  | 'R' =>
      if 4 ≤ payload.length then
        let authType := Int32.ofNat (fromBeBytes (payload.take 4))
        if authType = 0 then .returns true
        else if authType = 3 then .givesPassword
        else .returns false
      else .returns false
  | 'E' => .returns false
  | 'Z' => .returns true
  | _ => .goesOn

/-- What is sent and returned from there on, given what comes later. -/
def AuthStep.proceed (password : Option String) (rest : List UInt8)
    (later : List UInt8 × Except ServerFailure (Bool × List UInt8)) :
    AuthStep → List UInt8 × Except ServerFailure (Bool × List UInt8)
  | .returns ready => ([], .ok (ready, rest))
  | .givesPassword => (passwordMessage (password.getD "") ++ later.1, later.2)
  | .goesOn => later

/-- `read_until_auth_ready`: what it sends, and whether the server is ready for the client,
with what is left of the stream. -/
def readUntilAuthReady (password : Option String) :
    Nat → List UInt8 → List UInt8 × Except ServerFailure (Bool × List UInt8)
  | 0, _ => ([], .error (.error "early eof"))
  | fuel + 1, input =>
      match Client.readMessage input with
      | .error e => ([], .error e)
      | .ok (message, input) => (authStep message.1 message.2).proceed password input
          (readUntilAuthReady password fuel input)

/-- The loop of `ping` behind it. -/
def readUntilReady : Nat → List UInt8 → Except ServerFailure Unit
  | 0, _ => .error (.error "connection closed before ReadyForQuery")
  | fuel + 1, input =>
      if input = [] then .error (.error "connection closed before ReadyForQuery")
      else do
        let (message, input) ← Client.readMessage input
        match Char.ofUInt8 message.1 with
        | 'Z' => return
        | 'E' => .error (.error "server returned error during ping")
        | _ => readUntilReady fuel input

/-- What `ping` has sent when it has received these bytes. -/
def pingSends (password : Option String) (received : List UInt8) : List UInt8 :=
  startUp startupBody ++ (readUntilAuthReady password received.length received).1

/-- `ping`. -/
def ping (password : Option String) (received : List UInt8) : Except ServerFailure Unit := do
  let (ready, rest) ← (readUntilAuthReady password received.length received).2
  if ready then readUntilReady rest.length rest
  else .error (.error "authentication failed during ping")

variable {password : Option String} {input more : List UInt8}

/-- What has been sent has been sent, and a return is a return, when there is more to
read. -/
theorem readUntilAuthReady_feed {fuel longer : Nat} (enough : fuel ≤ longer) :
    (readUntilAuthReady password fuel input).1 <+:
        (readUntilAuthReady password longer (input ++ more)).1 ∧
      ∀ ready rest, (readUntilAuthReady password fuel input).2 = .ok (ready, rest) →
        readUntilAuthReady password longer (input ++ more) =
          ((readUntilAuthReady password fuel input).1, .ok (ready, rest ++ more)) := by
  induction fuel generalizing input longer with
  | zero => exact ⟨List.nil_prefix, fun ready rest returned => by cases returned⟩
  | succ fuel ih =>
      obtain ⟨longer, rfl⟩ : ∃ n, longer = n + 1 := ⟨longer - 1, by omega⟩
      rw [readUntilAuthReady, readUntilAuthReady]
      cases next : Client.readMessage input with
      | error e => exact ⟨List.nil_prefix, fun ready rest returned => by cases returned⟩
      | ok first =>
          rw [Client.readMessage_feed next]
          dsimp only
          obtain ⟨grows, stays⟩ := @ih first.2 longer (Nat.le_of_succ_le_succ enough)
          cases authStep first.1.1 first.1.2 with
          | returns ready =>
              refine ⟨List.prefix_rfl, fun ready rest returned => ?_⟩
              cases returned
              rfl
          | givesPassword =>
              refine ⟨(List.prefix_append_right_inj _).mpr grows, fun ready rest returned => ?_⟩
              dsimp only [AuthStep.proceed] at returned ⊢
              rw [stays ready rest returned]
          | goesOn => exact ⟨grows, stays⟩

/-- What `ping` sends grows with what it receives. -/
theorem pingSends_grows {received later : List UInt8} (grows : received <+: later) :
    pingSends password received <+: pingSends password later := by
  obtain ⟨more, rfl⟩ := grows
  have enough : received.length ≤ (received ++ more).length := by
    rw [List.length_append]
    exact Nat.le_add_right _ _
  exact (List.prefix_append_right_inj _).mpr (readUntilAuthReady_feed enough).1

end Reading

end Ping

section Conversing

variable [Runtime] (around : Surroundings) (server : Server) (nonce : List UInt8) (db : Database)
  (password : Option String)

/-- The server lets `ping` in: without TLS, and without a password or with this one in clear
text. -/
def Server.admits : Bool :=
  !server.tls.requireTls && (!server.auth.required ||
    (!server.auth.scramAvailable && !server.auth.requireTlsForPassword &&
      server.auth.verify around (password.getD "")))

/-- The conversation comes to one end whatever the deliveries, with this result of `ping`, and
nothing is executed on the way. -/
def PingEnds (result : Except ServerFailure Unit) : Prop :=
  ∃ final, Settled (Ping.pingSends password) (serverSends around server nonce (newConnection db))
      final ∧
    Ping.ping password final.toClient = result ∧
    ∀ t, Reached (Ping.pingSends password) (serverSends around server nonce (newConnection db)) t →
      ReflTransGen (Delivers (Ping.pingSends password)
        (serverSends around server nonce (newConnection db))) t final ∧
      executions (served around server nonce (newConnection db) t.toServer) = []

variable {around server nonce db password}

/-- An end that is reached is the end. -/
theorem PingEnds.of_reached {final : Transcript UInt8 UInt8} {rest : List UInt8}
    (settled : Settled (Ping.pingSends password)
      (serverSends around server nonce (newConnection db)) final)
    (reached : Reached (Ping.pingSends password)
      (serverSends around server nonce (newConnection db)) final)
    (begins : final.toServer <+: startUp Ping.startupBody ++ rest)
    (idle : executions (served around server nonce (newConnection db) final.toServer) = []) :
    PingEnds around server nonce db password (Ping.ping password final.toClient) := by
  have clientGrows : GrowsUpTo (Ping.pingSends password) final.toClient :=
    fun _ _ later _ => Ping.pingSends_grows later
  have serverGrows : GrowsUpTo (serverSends around server nonce (newConnection db))
      final.toServer :=
    growsUpTo_serverSends around nonce Ping.startupBody_startsUp (newConnection db) begins
  refine ⟨final, settled, rfl, fun t reached' => ?_⟩
  have within := reached'.within settled clientGrows serverGrows
  refine ⟨reached.settles settled clientGrows serverGrows reached', ?_⟩
  have grows : executions (served around server nonce (newConnection db) t.toServer) <+:
      executions (served around server nonce (newConnection db) final.toServer) :=
    executions_prefix (served_startup_grows around nonce Ping.startupBody_startsUp
      (newConnection db) begins within.1)
  rw [idle] at grows
  exact List.prefix_nil.mp grows

variable (password) in
/-- The start-up message arrives. -/
theorem reached_startUp : Reached (Ping.pingSends password)
    (serverSends around server nonce (newConnection db))
    { toServer := startUp Ping.startupBody, toClient := [] } := by
  have starts : Ping.pingSends password [] = startUp Ping.startupBody := List.append_nil _
  exact Reached.serverHears .refl starts List.nil_prefix

/-- Against a server that trusts, `ping` succeeds. -/
theorem pingEnds_trusting (optional : server.tls.requireTls = false)
    (trusts : server.auth.required = false) :
    PingEnds around server nonce db password (.ok ()) := by
  obtain ⟨welcomed, idle⟩ :=
    serverSends_trusting around nonce Ping.startupBody_startsUp optional trusts db
  have sent : (Ping.readUntilAuthReady password (wireBytes welcomeMessages).length
      (wireBytes welcomeMessages)).1 = [] := rfl
  have rests : Ping.pingSends password (wireBytes welcomeMessages) =
      startUp Ping.startupBody := by
    rw [Ping.pingSends, sent, List.append_nil]
  have second := (reached_startUp password).clientHears welcomed List.nil_prefix
  have settled : Settled (Ping.pingSends password)
      (serverSends around server nonce (newConnection db))
      { toServer := startUp Ping.startupBody, toClient := wireBytes welcomeMessages } :=
    ⟨rests.symm, welcomed.symm⟩
  have ends := PingEnds.of_reached settled second (List.prefix_append _ []) idle
  have ready : Ping.ping password (wireBytes welcomeMessages) = .ok () := rfl
  rwa [ready] at ends

/-- Against a server that requires TLS, or wants SCRAM or TLS for a password, it fails. -/
theorem pingEnds_refused (refuses : server.tls.requireTls = true ∨ server.auth.required = true ∧
    (server.auth.scramAvailable = true ∨ server.auth.requireTlsForPassword = true)) :
    PingEnds around server nonce db password
      (.error (.error "authentication failed during ping")) := by
  obtain ⟨answers, idle⟩ := serverSends_refused around nonce Ping.startupBody_startsUp db
    (refuses.imp_right And.left)
  have turned : Ping.pingSends password (wireBytes [server.refusal]) = startUp Ping.startupBody ∧
      Ping.ping password (wireBytes [server.refusal]) =
        .error (.error "authentication failed during ping") := by
    unfold Server.refusal
    split
    · exact ⟨rfl, rfl⟩
    · split
      · exact ⟨rfl, rfl⟩
      · rename_i optional clear
        have scram : server.auth.scramAvailable = true := by
          obtain ⟨-, scram | tls⟩ := refuses.resolve_left optional
          · exact scram
          · rw [tls] at clear
            simpa using clear
        rw [AuthConfig.question, if_pos scram]
        exact ⟨rfl, rfl⟩
  have second := (reached_startUp password).clientHears answers List.nil_prefix
  rw [← turned.2]
  exact PingEnds.of_reached ⟨turned.1.symm, answers.symm⟩ second (List.prefix_append _ []) idle

/-- A password that is asked for in clear text decides. -/
theorem served_password {body : List UInt8} (starts : StartsUp body)
    (optional : server.tls.requireTls = false) (required : server.auth.required = true)
    (clear : server.auth.scramAvailable = false)
    (plain : server.auth.requireTlsForPassword = false) {text : String}
    (zeroFree : '\x00' ∉ text.toList) (short : (utf8Bytes text).length + 5 < 2 ^ 31) :
    (served around server nonce (newConnection db) (startUp body ++ passwordMessage text)).trace =
      [.entered false, .message 'R'.toUInt8 (toBeBytes 4 3), .verified text] ++
        if server.auth.verify around text then welcomeMessages
        else [.message 'E'.toUInt8
          ('M'.toUInt8 :: utf8Bytes "authentication failed" ++ [0, 0])] := by
  let s : ConnState := { newConnection db with input := startUp body ++ passwordMessage text }
  let noted : ConnState := { s with input := passwordMessage text, trace := [.entered false] }
  have question : server.auth.question = toBeBytes 4 3 := if_neg (by rw [clear]; decide)
  have entered := @enterSession_startup around server.withoutTls nonce s body
    (passwordMessage text) starts rfl optional rfl
  change enterSession around server.withoutTls nonce s = (do
    if server.auth.required && !false && server.auth.requireTlsForPassword &&
        !server.auth.scramAvailable then _ else _ : ConnM Bool) noted at entered
  have unrefused : (server.auth.required && !false && server.auth.requireTlsForPassword &&
      !server.auth.scramAvailable) = false := by
    rw [plain, Bool.and_false, Bool.false_and]
  rw [unrefused, if_neg Bool.false_ne_true] at entered
  have decided := @admitClient_password around nonce noted [] server.auth required clear rfl text
    zeroFree short (List.append_nil _).symm
  rw [question] at decided
  rw [served_withoutTls around nonce starts (newConnection db) List.prefix_rfl]
  change (finalState (handleConnection around server.withoutTls nonce) s).trace = _
  rw [handleConnection_eq]
  cases verified : server.auth.verify around text with
  | true =>
      rw [verified, if_pos rfl] at decided
      let welcomed : ConnState := { newConnection db with
        trace := [.entered false, .message 'R'.toUInt8 (toBeBytes 4 3), .verified text] ++
          welcomeMessages }
      have admitted : enterSession around server.withoutTls nonce s = .ok true welcomed :=
        entered.trans ((bind_of_ok decided).trans rfl)
      rw [finalState_bind_of_ok admitted, if_pos rfl, if_pos rfl]
      change (finalState (messageLoop around 1) welcomed).trace = welcomed.trace
      rw [@messageLoop_nil _ around 1 welcomed rfl]
  | false =>
      rw [verified, if_neg Bool.false_ne_true] at decided
      let turned : ConnState := { newConnection db with
        trace := [.entered false, .message 'R'.toUInt8 (toBeBytes 4 3), .verified text] ++
          [.message 'E'.toUInt8 ('M'.toUInt8 :: utf8Bytes "authentication failed" ++ [0, 0])] }
      have refused : enterSession around server.withoutTls nonce s = .ok false turned :=
        entered.trans ((bind_of_ok decided).trans rfl)
      rw [finalState_bind_of_ok refused, if_neg Bool.false_ne_true, if_neg Bool.false_ne_true]
      rfl

/-- What the answer to a password leads to. -/
theorem PingEnds.of_password {text : String} {told : List ConnEvent}
    (given : password.getD "" = text)
    (asked : Reached (Ping.pingSends password)
      (serverSends around server nonce (newConnection db))
      { toServer := startUp Ping.startupBody ++ passwordMessage text
        toClient := wireBytes [.message 'R'.toUInt8 (toBeBytes 4 3)] })
    (answers : (served around server nonce (newConnection db)
      (startUp Ping.startupBody ++ passwordMessage text)).trace =
        [.entered false, .message 'R'.toUInt8 (toBeBytes 4 3), .verified text] ++ told)
    (messages : ∀ event ∈ told, ∃ tag body, event = .message tag body)
    (sent : (Ping.readUntilAuthReady password
      (wireBytes (.message 'R'.toUInt8 (toBeBytes 4 3) :: told)).length
      (wireBytes (.message 'R'.toUInt8 (toBeBytes 4 3) :: told))).1 =
        passwordMessage (password.getD "") ++ []) :
    PingEnds around server nonce db password
      (Ping.ping password (wireBytes (.message 'R'.toUInt8 (toBeBytes 4 3) :: told))) := by
  have heard : serverSends around server nonce (newConnection db)
      (startUp Ping.startupBody ++ passwordMessage text) =
        wireBytes (.message 'R'.toUInt8 (toBeBytes 4 3) :: told) := by
    unfold serverSends
    rw [answers]
    rfl
  have rests : Ping.pingSends password
      (wireBytes (.message 'R'.toUInt8 (toBeBytes 4 3) :: told)) =
        startUp Ping.startupBody ++ passwordMessage text := by
    rw [Ping.pingSends, sent, given, List.append_nil]
  have longer : wireBytes [.message 'R'.toUInt8 (toBeBytes 4 3)] <+:
      wireBytes (.message 'R'.toUInt8 (toBeBytes 4 3) :: told) := ⟨wireBytes told, rfl⟩
  have idle : executions (served around server nonce (newConnection db)
      (startUp Ping.startupBody ++ passwordMessage text)) = [] := by
    have silent := @executions_messages { newConnection db with trace := told } messages
    unfold executions at silent ⊢
    dsimp only at silent
    rw [answers, List.filterMap_append, silent]
    rfl
  have settled : Settled (Ping.pingSends password)
      (serverSends around server nonce (newConnection db))
      { toServer := startUp Ping.startupBody ++ passwordMessage text
        toClient := wireBytes (.message 'R'.toUInt8 (toBeBytes 4 3) :: told) } :=
    ⟨rests.symm, heard.symm⟩
  have ends := PingEnds.of_reached settled (asked.clientHears heard longer) List.prefix_rfl idle
  exact ends

/-- Against a server that asks for a password in clear text, the password decides. -/
theorem pingEnds_password (optional : server.tls.requireTls = false)
    (required : server.auth.required = true) (clear : server.auth.scramAvailable = false)
    (plain : server.auth.requireTlsForPassword = false)
    (zeroFree : '\x00' ∉ (password.getD "").toList)
    (short : (utf8Bytes (password.getD "")).length + 5 < 2 ^ 31) :
    PingEnds around server nonce db password
      (if server.auth.verify around (password.getD "") then .ok ()
        else .error (.error "authentication failed during ping")) := by
  obtain ⟨text, given⟩ : ∃ text, password.getD "" = text := ⟨_, rfl⟩
  have question : server.refusal = .message 'R'.toUInt8 (toBeBytes 4 3) := by
    rw [Server.refusal, optional, plain, AuthConfig.question, clear]
    rfl
  obtain ⟨asked, -⟩ := serverSends_refused around nonce Ping.startupBody_startsUp db (.inr required)
  have gives : Ping.pingSends password (wireBytes [server.refusal]) =
      startUp Ping.startupBody ++ passwordMessage text := by
    have sent : (Ping.readUntilAuthReady password
        (wireBytes [.message 'R'.toUInt8 (toBeBytes 4 3)]).length
        (wireBytes [.message 'R'.toUInt8 (toBeBytes 4 3)])).1 =
          passwordMessage (password.getD "") ++ [] := rfl
    rw [question, Ping.pingSends, sent, given, List.append_nil]
  have second := (reached_startUp password).clientHears asked List.nil_prefix
  have third := second.serverHears gives (List.prefix_append _ _)
  rw [question] at third
  rw [given] at zeroFree short ⊢
  have decided : (served around server nonce (newConnection db)
      (startUp Ping.startupBody ++ passwordMessage text)).trace = _ :=
    served_password Ping.startupBody_startsUp optional required clear plain zeroFree short
  cases verified : server.auth.verify around text with
  | true =>
      have ready : Ping.ping password
          (wireBytes (.message 'R'.toUInt8 (toBeBytes 4 3) :: welcomeMessages)) = .ok () := rfl
      rw [verified, if_pos rfl] at decided
      rw [if_pos rfl, ← ready]
      refine PingEnds.of_password given third decided (fun event member => ?_) rfl
      simp only [welcomeMessages, List.mem_cons, List.not_mem_nil, or_false] at member
      rcases member with rfl | rfl | rfl | rfl | rfl
      all_goals exact ⟨_, _, rfl⟩
  | false =>
      rw [verified, if_neg Bool.false_ne_true] at decided
      refine PingEnds.of_password given third decided (fun event member => ?_) rfl
      exact ⟨_, _, List.mem_singleton.mp member⟩

/-- **The health check tells who is let in.** Whatever the deliveries, the conversation of
`ping` with the server comes to one end, and executes nothing on the way. There `ping` has
succeeded exactly if the server requires no TLS, and either no password or this one in
clear text; otherwise it has failed to authenticate. -/
theorem ping_settles (zeroFree : '\x00' ∉ (password.getD "").toList)
    (short : (utf8Bytes (password.getD "")).length + 5 < 2 ^ 31) :
    PingEnds around server nonce db password
      (if server.admits around password then .ok ()
        else .error (.error "authentication failed during ping")) := by
  unfold Server.admits
  cases tls : server.tls.requireTls with
  | true =>
      rw [Bool.not_true, Bool.false_and, if_neg Bool.false_ne_true]
      exact pingEnds_refused (.inl tls)
  | false =>
      rw [Bool.not_false, Bool.true_and]
      cases required : server.auth.required with
      | false =>
          rw [Bool.not_false, Bool.true_or, if_pos rfl]
          exact pingEnds_trusting tls required
      | true =>
          rw [Bool.not_true, Bool.false_or]
          cases scram : server.auth.scramAvailable with
          | true =>
              rw [Bool.not_true, Bool.false_and, Bool.false_and, if_neg Bool.false_ne_true]
              exact pingEnds_refused (.inr ⟨required, .inl scram⟩)
          | false =>
              rw [Bool.not_false, Bool.true_and]
              cases plain : server.auth.requireTlsForPassword with
              | true =>
                  rw [Bool.not_true, Bool.false_and, if_neg Bool.false_ne_true]
                  exact pingEnds_refused (.inr ⟨required, .inr plain⟩)
              | false =>
                  rw [Bool.not_false, Bool.true_and]
                  exact pingEnds_password tls required scram plain zeroFree short

end Conversing

/-- With the password of the server it succeeds. -/
theorem ping_settles_secret : @PingEnds Runtime.reference threeTexts passwordOnly []
    Executor.fresh.toDatabase (some "secret") (.ok ()) := by
  have admitted : passwordOnly.admits threeTexts (some "secret") = true := by decide
  have settles := @ping_settles Runtime.reference threeTexts passwordOnly []
    Executor.fresh.toDatabase (some "secret") (by decide) (by decide)
  rwa [admitted, if_pos rfl] at settles

end MoodengSQL
