import MoodengSQL.Foundation.Traces
import MoodengSQL.Server.Steps

/-!
# What has to come before a session

Which events each part of a connection can add, and from it the order of events
on every connection of a server that `run_serve` accepts: TLS before the session
where TLS is required, authentication before anything is granted where it is
required, and TLS before a password is asked for.
-/

namespace MoodengSQL

open Foundation Effect ConnM

/-- The computation adds events of an allowed kind only. -/
abbrev Only {α : Type} (allowed : ConnEvent → Prop) (m : ConnM α) : Prop :=
  Moves (Adds ConnState.trace allowed) m

section Parts

variable {allowed : ConnEvent → Prop}

theorem only_emit {event : ConnEvent} (allow : allowed event) : Only allowed (emit event) :=
  .write fun _ => .of_append rfl allow

/-- Taking bytes from the client adds nothing. -/
theorem adds_takes (s : ConnState) (input : List UInt8) :
    Adds ConnState.trace allowed s { s with input } := .of_eq rfl

theorem only_writeAll : Only allowed writeAll := by
  intro s
  apply Adds.of_eq
  obtain ⟨input, outages, conn, db, trace⟩ := s
  rcases outages with _ | ⟨_ | _, rest⟩ <;> rfl

theorem only_acceptTls (secured : allowed .secured) (accept : TlsAcceptor) :
    Only allowed (acceptTls accept) := by
  intro s
  unfold finalState acceptTls
  cases accept s.input with
  | some input => exact .of_append rfl secured
  | none => exact .of_eq rfl

theorem only_pushBack (bytes : List UInt8) : Only allowed (pushBack bytes) :=
  .write fun _ => .of_eq rfl

theorem only_modifyConn (f : ConnectionSession → ConnectionSession) :
    Only allowed (modifyConn f) := .write fun _ => .of_eq rfl

theorem only_sendMessage {tag : Char} {body : List UInt8}
    (allow : allowed (.message tag.toUInt8 body)) : Only allowed (sendMessage tag body) :=
  .seq (only_emit allow) fun _ => .seq only_writeAll fun _ => .seq only_writeAll fun _ =>
    only_writeAll

theorem only_sendError (errors : ∀ body, allowed (.message 'E'.toUInt8 body)) (msg : String) :
    Only allowed (sendError msg) := only_sendMessage (errors _)

end Parts

section Negotiation

variable {allowed : ConnEvent → Prop}

theorem only_negotiateStream (bytes : ∀ byte, allowed (.byte byte))
    (errors : ∀ body, allowed (.message 'E'.toUInt8 body)) (secured : allowed .secured)
    (tls : TlsSettings) (acceptor : Option TlsAcceptor) :
    Only allowed (negotiateStream tls acceptor) := by
  unfold negotiateStream
  refine .seq (moves_readI32 adds_takes) fun len => ?_
  dsimp only
  split
  · refine .seq (moves_readI32 adds_takes) fun code => ?_
    split
    · cases acceptor with
      | some accept =>
          refine .seq (.seq (only_emit (bytes _)) fun _ => only_writeAll) fun _ => ?_
          exact .seq (only_acceptTls secured accept) fun _ => .ret _
      | none =>
          refine .seq (.seq (only_emit (bytes _)) fun _ => only_writeAll) fun _ => ?_
          refine .seq (moves_readI32 adds_takes) fun startupLen => ?_
          refine .seq (moves_readBody adds_takes _) fun startupBody => ?_
          exact .seq (only_pushBack _) fun _ => .ret _
    · exact .fail _
  · split
    · exact .seq (only_sendError errors _) fun _ => .fail _
    · refine .seq (moves_readBody adds_takes _) fun startupBody => ?_
      exact .seq (only_pushBack _) fun _ => .ret _

/-- A connection negotiated as encrypted has gone through a TLS handshake. -/
theorem secured_of_negotiateStream {tls : TlsSettings} {acceptor : Option TlsAcceptor}
    {s s' : ConnState} (ran : negotiateStream tls acceptor s = .ok true s') :
    .secured ∈ s'.trace := by
  unfold negotiateStream at ran
  obtain ⟨len, afterLen, -, ran⟩ := bind_eq_ok.mp ran
  dsimp only at ran
  split at ran
  · obtain ⟨code, afterCode, -, ran⟩ := bind_eq_ok.mp ran
    split at ran
    · cases acceptor with
      | some accept =>
          obtain ⟨_, answered, -, ran⟩ := bind_eq_ok.mp ran
          obtain ⟨_, inside, handshake, ran⟩ := bind_eq_ok.mp ran
          obtain ⟨-, rfl⟩ := pure_eq_ok.mp ran
          unfold acceptTls at handshake
          split at handshake
          · cases handshake
            exact List.mem_append_right _ (List.mem_singleton_self _)
          · cases handshake
      | none =>
          obtain ⟨_, answered, -, ran⟩ := bind_eq_ok.mp ran
          obtain ⟨startupLen, afterStartup, -, ran⟩ := bind_eq_ok.mp ran
          obtain ⟨startupBody, afterBody, -, ran⟩ := bind_eq_ok.mp ran
          obtain ⟨_, prefixed, -, ran⟩ := bind_eq_ok.mp ran
          exact nomatch (pure_eq_ok.mp ran).1
    · exact (throw_eq_ok.mp ran).elim
  · split at ran
    · obtain ⟨_, refused, -, ran⟩ := bind_eq_ok.mp ran
      exact (throw_eq_ok.mp ran).elim
    · obtain ⟨startupBody, afterBody, -, ran⟩ := bind_eq_ok.mp ran
      obtain ⟨_, prefixed, -, ran⟩ := bind_eq_ok.mp ran
      exact nomatch (pure_eq_ok.mp ran).1

/-- Where TLS is required and there is an acceptor, only an encrypted connection
is let through. -/
theorem encrypted_of_requireTls {tls : TlsSettings} {accept : TlsAcceptor} {s s' : ConnState}
    {encrypted : Bool} (requires : tls.requireTls = true)
    (ran : negotiateStream tls (some accept) s = .ok encrypted s') : encrypted = true := by
  unfold negotiateStream at ran
  obtain ⟨len, afterLen, -, ran⟩ := bind_eq_ok.mp ran
  dsimp only at ran
  split at ran
  · obtain ⟨code, afterCode, -, ran⟩ := bind_eq_ok.mp ran
    split at ran
    · obtain ⟨_, answered, -, ran⟩ := bind_eq_ok.mp ran
      obtain ⟨_, inside, -, ran⟩ := bind_eq_ok.mp ran
      exact (pure_eq_ok.mp ran).1.symm
    · exact (throw_eq_ok.mp ran).elim
  · obtain ⟨_, refused, -, ran⟩ := bind_eq_ok.mp ran
    exact (throw_eq_ok.mp ran).elim

end Negotiation

section Authentication

variable {around : Surroundings} {auth : AuthConfig} {nonce : List UInt8}
  {allowed : ConnEvent → Prop}

/-- An event lets the client in: the authentication is reported to have gone
well, or a text reaches the engine. -/
def Grants : ConnEvent → Prop
  | .message tag body => tag = 'R'.toUInt8 ∧ body = toBeBytes 4 0
  | .executed _ => True
  | _ => False

/-- The request for a password in clear text. -/
def AsksPassword (event : ConnEvent) : Prop := event = .message 'R'.toUInt8 (toBeBytes 4 3)

variable (around auth) in
/-- An event shows that the client knows the secret: its password passed the
check against the stored hash, or an exchange begun with the stored credentials
came to its end. -/
def Proves : ConnEvent → Prop
  | .verified password => ∃ hash, auth.passwordHash = some hash ∧
      around.verifyPassword password hash = true
  | .finished session clientFinal =>
      (∃ creds nonce clientFirst serverFirst, auth.scramCredentials = some creds ∧
        ScramSession.start around.crypto creds nonce clientFirst = .ok (session, serverFirst)) ∧
      ∃ serverFinal, session.finish around.crypto clientFinal = .ok serverFinal
  | _ => False

theorem only_readSaslMessage : Only allowed readSaslMessage := by
  unfold readSaslMessage
  refine .seq (moves_readU8 adds_takes) fun msgType => ?_
  split
  · exact .fail _
  · refine .seq (moves_readI32 adds_takes) fun msgLen => ?_
    refine .seq (moves_readBody adds_takes _) fun payload => ?_
    dsimp only
    split
    · exact .fail _
    · refine .seq (moves_lift _) fun entry => ?_
      split
      · exact .ret _
      · split
        · exact .fail _
        · exact .ret _

/-- What authentication adds: requests other than the report of success, errors,
and what is checked. -/
structure Authenticates (allowed : ConnEvent → Prop) : Prop where
  request : ∀ code rest, toBeBytes 4 code ≠ toBeBytes 4 0 →
    allowed (.message 'R'.toUInt8 (toBeBytes 4 code ++ rest))
  error : ∀ body, allowed (.message 'E'.toUInt8 body)
  verified : ∀ password, allowed (.verified password)
  finished : ∀ session clientFinal, allowed (.finished session clientFinal)

/-- Authentication grants nothing. -/
theorem authenticates_not_grants : Authenticates fun event => ¬Grants event where
  request code rest request := fun ⟨_, same⟩ =>
    request (List.append_inj_left same (by simp only [toBeBytes_length]))
  error body := fun ⟨otherTag, _⟩ => absurd otherTag (by decide)
  verified _ := id
  finished _ _ := id

section Exchanges

variable (authenticates : Authenticates allowed)

include authenticates

theorem only_authenticateCleartext : Only allowed (authenticateCleartext around auth) := by
  unfold authenticateCleartext
  refine .seq (only_sendMessage ?_) fun _ => ?_
  · rw [← List.append_nil (toBeBytes 4 3)]
    exact authenticates.request 3 [] (by decide)
  refine .seq (moves_readU8 adds_takes) fun msgType => ?_
  split
  · exact .seq (only_sendError authenticates.error _) fun _ => .ret _
  · refine .seq (moves_readI32 adds_takes) fun pwLen => ?_
    refine .seq (moves_readBody adds_takes _) fun pwBuf => ?_
    refine .seq (only_emit (authenticates.verified _)) fun _ => ?_
    split
    · exact .seq (only_sendError authenticates.error _) fun _ => .ret _
    · exact .ret _

theorem only_authenticateScram : Only allowed (authenticateScram around auth nonce) := by
  unfold authenticateScram
  refine .seq (only_sendMessage (authenticates.request 10 _ (by decide))) fun _ => ?_
  refine .seq only_readSaslMessage fun first => ?_
  dsimp only
  split
  · exact .seq (only_sendError authenticates.error _) fun _ => .ret _
  · refine .seq (moves_lift _) fun clientFirst => ?_
    refine .seq (moves_lift _) fun creds => ?_
    refine .seq (moves_lift _) fun started => ?_
    refine .seq (only_sendMessage ?_) fun _ => ?_
    · rw [List.append_assoc]
      exact authenticates.request 11 _ (by decide)
    refine .seq only_readSaslMessage fun second => ?_
    refine .seq (moves_lift _) fun clientFinal => ?_
    refine .seq (only_emit (authenticates.finished _ _)) fun _ => ?_
    split
    · refine .seq (only_sendMessage ?_) fun _ => .ret _
      rw [List.append_assoc]
      exact authenticates.request 12 _ (by decide)
    · exact .seq (only_sendError authenticates.error _) fun _ => .ret _

theorem only_authenticate : Only allowed (authenticate around auth nonce) := by
  unfold authenticate
  split
  · exact only_authenticateScram authenticates
  · exact only_authenticateCleartext authenticates

theorem only_admitClient : Only allowed (admitClient around auth nonce) := by
  unfold admitClient
  split
  · exact only_authenticate authenticates
  · exact .ret _

end Exchanges

variable {s s' : ConnState}

/-- A password exchange that went well has checked the password. -/
theorem verified_of_authenticateCleartext (hash : auth.passwordHash.isSome = true)
    (ran : authenticateCleartext around auth s = .ok true s') :
    ∃ event ∈ s'.trace, Proves around auth event := by
  obtain ⟨stored, isHash⟩ := Option.isSome_iff_exists.mp hash
  unfold authenticateCleartext at ran
  obtain ⟨_, asked, -, ran⟩ := bind_eq_ok.mp ran
  obtain ⟨msgType, afterType, -, ran⟩ := bind_eq_ok.mp ran
  split at ran
  · obtain ⟨_, refused, -, ran⟩ := bind_eq_ok.mp ran
    exact nomatch (pure_eq_ok.mp ran).1
  · obtain ⟨pwLen, afterLen, -, ran⟩ := bind_eq_ok.mp ran
    obtain ⟨pwBuf, afterBuf, -, ran⟩ := bind_eq_ok.mp ran
    obtain ⟨_, checked, noted, ran⟩ := bind_eq_ok.mp ran
    split at ran
    · obtain ⟨_, refused, -, ran⟩ := bind_eq_ok.mp ran
      exact nomatch (pure_eq_ok.mp ran).1
    · next passed =>
        obtain ⟨-, rfl⟩ := pure_eq_ok.mp ran
        rw [modify_eq_ok.mp noted]
        refine ⟨.verified (readCstring pwBuf),
          List.mem_append_right _ (List.mem_singleton_self _), stored, isHash, ?_⟩
        simpa [AuthConfig.verify, isHash] using passed

theorem lift_eq_ok {α : Type} {result : Except ServerFailure α} {a : α} :
    lift result s = .ok a s' ↔ result = .ok a ∧ s = s' := by
  cases result with
  | ok b => simp [lift, pure, EStateM.pure]
  | error e => simp [lift, throw_eq_ok]

theorem okOr_eq_ok {α : Type} {value : Option α} {message : String} {a : α} :
    okOr value message = .ok a ↔ value = some a := by
  cases value <;> simp [okOr]

/-- A SCRAM exchange that went well has come to its end. -/
theorem finished_of_authenticateScram (ran : authenticateScram around auth nonce s = .ok true s') :
    ∃ event ∈ s'.trace, Proves around auth event := by
  unfold authenticateScram at ran
  obtain ⟨_, offered, -, ran⟩ := bind_eq_ok.mp ran
  obtain ⟨first, afterFirst, -, ran⟩ := bind_eq_ok.mp ran
  dsimp only at ran
  split at ran
  · obtain ⟨_, refused, -, ran⟩ := bind_eq_ok.mp ran
    exact nomatch (pure_eq_ok.mp ran).1
  · obtain ⟨clientFirst, mid, -, ran⟩ := bind_eq_ok.mp ran
    obtain ⟨creds, mid, hasCreds, ran⟩ := bind_eq_ok.mp ran
    obtain ⟨⟨session, serverFirst⟩, mid, started, ran⟩ := bind_eq_ok.mp ran
    obtain ⟨_, challenged, -, ran⟩ := bind_eq_ok.mp ran
    obtain ⟨second, mid, -, ran⟩ := bind_eq_ok.mp ran
    obtain ⟨clientFinal, mid, -, ran⟩ := bind_eq_ok.mp ran
    obtain ⟨_, noted, noting, ran⟩ := bind_eq_ok.mp ran
    dsimp only at ran
    cases finished : session.finish around.crypto clientFinal with
    | error e =>
        rw [finished] at ran
        obtain ⟨_, refused, -, ran⟩ := bind_eq_ok.mp ran
        exact nomatch (pure_eq_ok.mp ran).1
    | ok serverFinal =>
        rw [finished] at ran
        obtain ⟨_, reported, reporting, ran⟩ := bind_eq_ok.mp ran
        obtain ⟨-, rfl⟩ := pure_eq_ok.mp ran
        have later : Adds ConnState.trace (fun _ => True) noted reported :=
          Moves.of_ok (only_sendMessage trivial) reporting
        refine ⟨.finished session clientFinal, ?_, ⟨creds, nonce, clientFirst, serverFirst, ?_, ?_⟩,
          serverFinal, finished⟩
        · apply later.mem
          rw [modify_eq_ok.mp noting]
          exact List.mem_append_right _ (List.mem_singleton_self _)
        · exact okOr_eq_ok.mp (lift_eq_ok.mp hasCreds).1
        · exact (lift_eq_ok.mp started).1

/-- **Authentication that went well leaves a proof.** -/
theorem proved_of_admitClient (required : auth.required = true)
    (ran : admitClient around auth nonce s = .ok true s') :
    ∃ event ∈ s'.trace, Proves around auth event := by
  unfold admitClient at ran
  rw [if_pos required] at ran
  unfold authenticate at ran
  split at ran
  · exact finished_of_authenticateScram ran
  · next noScram =>
      refine verified_of_authenticateCleartext ?_ ran
      simpa [AuthConfig.required, AuthConfig.scramAvailable] using
        Or.resolve_right (Bool.or_eq_true_iff.mp required) noScram

end Authentication

section Sessions

variable [Runtime] {around : Surroundings} {server : Server} {nonce : List UInt8}
  {allowed : ConnEvent → Prop}

/-- What a session adds: messages to the client, messages of the client, and
texts executed. -/
structure Speaks (allowed : ConnEvent → Prop) : Prop where
  message : ∀ tag body, allowed (.message tag body)
  received : ∀ tag payload, allowed (.received tag payload)
  executed : ∀ sql, allowed (.executed sql)

section Loop

variable (speaks : Speaks allowed)

include speaks

theorem only_executeSql (sql : String) : Only allowed (executeSql around sql) := by
  intro s
  unfold finalState executeSql
  dsimp only
  cases executeText (around.parseSql sql) { s.db with session := s.conn.session } with
  | ok result after => exact .of_append rfl (speaks.executed sql)
  | error e after => cases e <;> exact .of_append rfl (speaks.executed sql)

theorem Speaks.serves : Serves around (Adds ConnState.trace allowed) where
  message _ _ _ := only_emit (speaks.message _ _)
  ready _ := only_emit (speaks.message _ _)
  write := only_writeAll
  flag _ _ := .of_eq rfl
  keep _ _ _ := .of_eq rfl
  execute := only_executeSql speaks

/-- The message loop adds nothing else. -/
theorem only_messageLoop (fuel : Nat) : Only allowed (messageLoop around fuel) := by
  induction fuel with
  | zero => exact .ret _
  | succ fuel ih =>
      refine .seq (moves_readMessage adds_takes fun _ _ => only_emit (speaks.received _ _)) fun next => ?_
      cases next with
      | none => exact .ret _
      | some message =>
          refine .seq (speaks.serves.handleMessage _ _) fun goesOn => ?_
          split
          · exact ih
          · exact .ret _

omit [Runtime] in
theorem only_sendParameters (entries : List (String × String)) :
    Only allowed (sendParameters entries) := by
  induction entries with
  | nil => exact .ret _
  | cons entry rest ih => exact .seq (only_sendMessage (speaks.message _ _)) fun _ => ih

omit [Runtime] in
theorem only_welcome : Only allowed welcome := by
  refine .seq (only_sendMessage (speaks.message _ _)) fun _ => ?_
  refine .seq (only_sendParameters speaks _) fun _ => ?_
  exact .seq (only_sendMessage (speaks.message _ _)) fun _ => only_modifyConn _

/-- Neither does what comes after authentication. -/
theorem only_serving : Only allowed (do
    welcome
    let s ← get
    messageLoop around (s.input.length + 1)) := by
  refine .seq (only_welcome speaks) fun _ => ?_
  refine .seq .read fun s => ?_
  exact only_messageLoop speaks _

end Loop

variable {auth : AuthConfig} {encrypted : Bool} {s : ConnState}

/-- A session adds its entry and what authentication and serving add. -/
theorem only_runSession (speaks : Speaks allowed) (authenticates : Authenticates allowed)
    (entered : allowed (.entered encrypted)) :
    Only allowed (runSession around auth nonce encrypted) := by
  unfold runSession
  refine .seq (only_emit entered) fun _ => .seq (moves_readI32 adds_takes) fun len => ?_
  refine .seq (moves_readBody adds_takes _) fun buf => .seq (moves_lift _) fun version => ?_
  split
  · exact only_sendError authenticates.error _
  · refine .seq (only_admitClient authenticates) fun ok => ?_
    split
    · exact only_serving speaks
    · exact .ret _

/-- **In a session that needs authentication nothing is granted before it.** -/
theorem preceded_runSession (required : auth.required = true)
    (before : Preceded (Proves around auth) Grants s.trace) :
    Preceded (Proves around auth) Grants
      (finalState (runSession around auth nonce encrypted) s).trace := by
  unfold runSession
  refine before.seq (only_emit id) fun _ s _ before => ?_
  refine before.seq (moves_readI32 adds_takes) fun len s _ before => ?_
  refine before.seq (moves_readBody adds_takes _) fun buf s _ before => ?_
  refine before.seq (moves_lift _) fun version s _ before => ?_
  split
  · exact before.adds (only_sendError authenticates_not_grants.error _ s)
  · refine before.seq (only_admitClient authenticates_not_grants) fun ok s ran before => ?_
    split
    · next passed =>
        subst passed
        have any : Speaks fun _ => True := ⟨fun _ _ => trivial, fun _ _ => trivial, fun _ => trivial⟩
        exact before.adds_of_cause (proved_of_admitClient required ran) (only_serving any s)
    · exact before.adds (Moves.ret () s)

/-- **Where a password may be asked for in TLS only, an unencrypted session is
refused.** -/
theorem only_runSession_refused (needsTls : auth.requireTlsForPassword = true)
    (required : auth.required = true) (noScram : auth.scramAvailable = false) :
    Only (fun event => ¬AsksPassword event) (runSession around auth nonce false) := by
  unfold runSession
  refine .seq (only_emit nofun) fun _ => .seq (moves_readI32 adds_takes) fun len => ?_
  refine .seq (moves_readBody adds_takes _) fun buf => .seq (moves_lift _) fun version => ?_
  rw [if_pos (by simp [needsTls, required, noScram])]
  exact only_sendError (fun body => nofun) _

variable {cfg : Config}

/-- An entry into the session is encrypted. -/
def EntersEncrypted : ConnEvent → Prop
  | .entered encrypted => encrypted = true
  | _ => True

/-- **Where TLS is required, a session is entered encrypted.** -/
theorem only_entered_encrypted (accepts : runServe around cfg = .ok server)
    (requires : cfg.requireTls = true) :
    Only EntersEncrypted (handleConnection around server nonce) := by
  have sameTls : server.tls.requireTls = true := by
    rw [(runServe_eq_ok.mp accepts).1]
    exact requires
  obtain ⟨accept, hasAcceptor⟩ :=
    Option.isSome_iff_exists.mp (tlsAcceptor_of_requireTls accepts sameTls)
  unfold handleConnection
  rw [hasAcceptor]
  have negotiation : Only EntersEncrypted (negotiateStream server.tls (some accept)) :=
    only_negotiateStream (fun _ => trivial) (fun _ => trivial) trivial _ _
  refine negotiation.seq_returns
    (fun _ _ _ ran => encrypted_of_requireTls sameTls ran) fun encrypted isTrue => ?_
  apply only_runSession
  · exact ⟨fun _ _ => trivial, fun _ _ => trivial, fun _ => trivial⟩
  · exact ⟨fun _ _ _ => trivial, fun _ => trivial, fun _ => trivial, fun _ _ => trivial⟩
  · exact isTrue

omit [Runtime] in
/-- Negotiation adds bytes, errors and the handshake. -/
theorem not_grants_negotiation : Only (fun event => ¬Grants event)
    (negotiateStream server.tls server.tlsAcceptor) :=
  only_negotiateStream (fun _ => id) authenticates_not_grants.error id _ _

/-- **Authentication and TLS gate every session.** On every connection to a server
that `run_serve` accepts, whatever the client sends and wherever writes fail: where
TLS is required the session is entered encrypted; where authentication is required
nothing is granted before the client has proved that it knows the secret; and with
a password hash, TLS and no SCRAM a password is asked for only inside TLS. -/
theorem gates_hold (accepts : runServe around cfg = .ok server) (s : ConnState)
    (fresh : s.trace = []) :
    let trace := (finalState (handleConnection around server nonce) s).trace
    (cfg.requireTls = true → ∀ encrypted, .entered encrypted ∈ trace → encrypted = true) ∧
      (server.auth.required = true → Preceded (Proves around server.auth) Grants trace) ∧
      (server.auth.passwordHash.isSome = true → server.tls.tlsAvailable = true →
        server.auth.scramAvailable = false →
          Preceded (fun event => event = .secured) AsksPassword trace) := by
  dsimp only
  have start : ∀ {cause kind : ConnEvent → Prop}, Preceded cause kind s.trace := by
    intro cause kind
    rw [fresh]
    exact .nil
  refine ⟨fun requires => ?_, fun required => ?_, fun hash available noScram => ?_⟩
  · intro encrypted member
    rcases (only_entered_encrypted accepts requires s).mem_or member with early | isTrue
    · rw [fresh] at early
      cases early
    · exact isTrue
  · refine start.seq not_grants_negotiation fun encrypted mid _ before => ?_
    exact preceded_runSession required before
  · have asks : Only (fun event => ¬AsksPassword event)
        (negotiateStream server.tls server.tlsAcceptor) :=
      only_negotiateStream (fun _ => nofun) (fun _ => nofun) nofun _ _
    refine start.seq asks fun encrypted mid negotiated before => ?_
    cases encrypted with
    | true =>
        have rest : Only (fun _ => True) (runSession around server.auth nonce true) := by
          apply only_runSession
          · exact ⟨fun _ _ => trivial, fun _ _ => trivial, fun _ => trivial⟩
          · exact ⟨fun _ _ _ => trivial, fun _ => trivial, fun _ => trivial, fun _ _ => trivial⟩
          · trivial
        exact before.adds_of_cause ⟨_, secured_of_negotiateStream negotiated, rfl⟩ (rest mid)
    | false =>
        refine before.adds (only_runSession_refused ?_ ?_ noScram mid)
        · exact requireTlsForPassword_of_hash accepts hash available noScram
        · simp [AuthConfig.required, hash]

end Sessions

section Example

/-- Surroundings with one password, certificates that load, and TLS that hands on
what the client sends. -/
def onePassword : Surroundings where
  parseSql _ := .ok []
  crypto :=
    { hmacSha256 := fun _ _ => .replicate 32 0, sha256 := fun _ => .replicate 32 0
      base64Encode := fun _ => "", base64Decode := fun _ => .ok [] }
  hashPassword password := password
  verifyPassword password hash := password == "secret" && hash == "hash of secret"
  moodengPassword := none
  scramSalt := []
  loadTls _ _ := .ok some

/-- A configuration with certificates and a password hash that requires TLS. -/
def passwordConfig : Config where
  tlsCert := some "server.crt"
  tlsKey := some "server.key"
  requireTls := true
  passwordHash := some "hash of secret"
  passwordScram := none

/-- The server it gives. -/
def passwordServer : Server where
  tls := .fromServerConfig passwordConfig
  tlsAcceptor := some some
  auth := { passwordHash := some "hash of secret", scramCredentials := none,
            requireTlsForPassword := true }

/-- A client that asks for TLS, starts up, sends the password and ends. -/
def passwordClient : ConnState where
  input := toBeBytes 4 8 ++ toBeBytes 4 80877103 ++ toBeBytes 4 8 ++ toBeBytes 4 196608 ++
    'p'.toUInt8 :: toBeBytes 4 11 ++ utf8Bytes "secret" ++ 0 :: 'X'.toUInt8 :: toBeBytes 4 4
  outages := []
  conn := .new
  db := { catalog := ∅, storage := .open (.open [] none) ∅, indexes := ∅, activeWriteTxns := 0
          metaFile := none }
  trace := []

/-- The client gets in, by the gates. -/
theorem gates_hold_password :
    let trace := (finalState (@handleConnection Runtime.reference onePassword passwordServer [])
      passwordClient).trace
    (.message 'R'.toUInt8 (toBeBytes 4 0) ∈ trace) ∧
      (∀ encrypted, .entered encrypted ∈ trace → encrypted = true) ∧
      Preceded (Proves onePassword passwordServer.auth) Grants trace ∧
      Preceded (fun event => event = .secured) AsksPassword trace := by
  have accepts : runServe onePassword passwordConfig = .ok passwordServer := by rfl
  obtain ⟨encrypted, proved, secured⟩ :=
    @gates_hold Runtime.reference onePassword passwordServer [] passwordConfig accepts
      passwordClient rfl
  exact ⟨by decide +kernel, encrypted rfl, proved rfl, secured rfl rfl rfl⟩

end Example

end MoodengSQL
