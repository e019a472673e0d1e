import MoodengSQL.Server.Gates
import MoodengSQL.Server.Lengths

/-!
# The stages of a connection

The points a connection passes, from the first length a client sends to the
messages of its session, and the bytes the server finds there. A connection is
safe if every length leads to an error or to a payload of its size, if every read
from a buffer stays inside it, and if every text that is run has a preview.
-/

namespace MoodengSQL

open Foundation Effect ConnM

/-- A point of a connection: before the first length; before the start-up message
of a client that was refused TLS; before the start-up message of a session, and
after it; after the offer of SCRAM, and after its challenge; before the length of
a message of authentication; before a message of the loop, before its length, and
before a text is run. -/
inductive Stage where
  | connected
  | declined
  | entered (encrypted : Bool)
  | started (encrypted : Bool)
  | offered
  | challenged
  | credentials
  | waiting
  | typed
  | running (sql : String)

/-- What the server acts on at a stage leads to an error, or is all there. Where TLS
is required, `negotiate_stream` refuses every first length but 8; behind 8 it
reads the four bytes of a code. -/
def Stage.Handled (server : Server) : Stage → ConnState → Prop
  | .connected, s => server.tls.requireTls = false → LengthFits s
  | .declined, s | .credentials, s | .typed, s => LengthFits s
  | .entered _, s => LengthFits s ∧ VersionFits s
  | .running sql, _ => ∃ preview, summarizeSql sql = .ok preview
  | _, _ => True

/-- What the client sends at a stage is in form: a length counts its own four bytes,
that of a start-up message the four of the version too, and a text has a cut. -/
def Stage.InForm (server : Server) : Stage → ConnState → Prop
  | .connected, s => server.tls.requireTls = true ∨ s.input.length < 4 ∨ 4 ≤ nextLength s
  | .declined, s | .credentials, s | .typed, s => s.input.length < 4 ∨ 4 ≤ nextLength s
  | .entered _, s => s.input.length < 4 ∨
      4 ≤ nextLength s ∧ (8 ≤ nextLength s ∨ s.input.length < nextLength s)
  | .running sql, _ => HasCut sql
  | _, _ => True

/-- At every stage what is in form is handled, and nothing else is. -/
theorem Stage.handled_iff (server : Server) (stage : Stage) (s : ConnState) :
    stage.Handled server s ↔ stage.InForm server s := by
  cases stage with
  | connected =>
      change (server.tls.requireTls = false → LengthFits s) ↔ server.tls.requireTls = true ∨ _
      rw [lengthFits_iff, ← Bool.not_eq_true]
      exact or_iff_not_imp_left.symm
  | declined => exact lengthFits_iff
  | entered encrypted => exact startup_fits_iff
  | started encrypted => exact Iff.rfl
  | offered => exact Iff.rfl
  | challenged => exact Iff.rfl
  | credentials => exact lengthFits_iff
  | waiting => exact Iff.rfl
  | typed => exact lengthFits_iff
  | running sql => exact summarizeSql_iff sql

section Passes

variable [Runtime] (around : Surroundings) (server : Server) (nonce : List UInt8)
  (start : ConnState)

/-- A session that would take a password outside of TLS where it may not. -/
def AuthConfig.refuses (auth : AuthConfig) (encrypted : Bool) : Bool :=
  auth.required && !encrypted && auth.requireTlsForPassword && !auth.scramAvailable

/-- The stages a connection comes to, and the state it has there. -/
inductive Passes : Stage → ConnState → Prop
  | connected : Passes .connected start
  | declined {len : Int32} {s s' s'' : ConnState} (refuses : server.tlsAcceptor = none)
      (length : readI32 start = .ok len s) (eight : asUsize len = 8)
      (code : readI32 s = .ok SSL_REQUEST_CODE s') (answered : writeU8 'N' s' = .ok () s'') :
      Passes .declined s''
  | entered {encrypted : Bool} {s s' : ConnState}
      (negotiated : negotiateStream server.tls server.tlsAcceptor start = .ok encrypted s)
      (noted : emit (.entered encrypted) s = .ok () s') : Passes (.entered encrypted) s'
  | started {encrypted : Bool} {len : Int32} {buf : List UInt8} {version : Int32 × List UInt8}
      {s s' s'' : ConnState} (entered : Passes (.entered encrypted) s)
      (length : readI32 s = .ok len s') (body : readBody (asUsize len) s' = .ok buf s'')
      (hasVersion : getI32 buf = .ok version)
      (allowed : server.auth.refuses encrypted = false) : Passes (.started encrypted) s''
  | password {encrypted : Bool} {s s' s'' : ConnState} (started : Passes (.started encrypted) s)
      (required : server.auth.required = true) (noScram : server.auth.scramAvailable = false)
      (asked : sendMessage 'R' (toBeBytes 4 3) s = .ok () s')
      (answered : readU8 s' = .ok 'p'.toUInt8 s'') : Passes .credentials s''
  | offered {encrypted : Bool} {s s' : ConnState} (started : Passes (.started encrypted) s)
      (required : server.auth.required = true) (scram : server.auth.scramAvailable = true)
      (offer : sendMessage 'R' (toBeBytes 4 10 ++ utf8Bytes (SCRAM_SHA256 ++ "\x00\x00")) s =
        .ok () s') : Passes .offered s'
  | first {s s' : ConnState} (offered : Passes .offered s)
      (answered : readU8 s = .ok 'p'.toUInt8 s') : Passes .credentials s'
  | challenged {mechanism clientFirst serverFirst : String} {response : List UInt8}
      {creds : ScramCredentials} {session : ScramSession} {s s' s'' : ConnState}
      (offered : Passes .offered s) (read : readSaslMessage s = .ok (mechanism, response) s')
      (supported : mechanism = "" ∨ mechanism = SCRAM_SHA256)
      (decoded : fromUtf8 response = some clientFirst)
      (stored : server.auth.scramCredentials = some creds)
      (begun : ScramSession.start around.crypto creds nonce clientFirst =
        .ok (session, serverFirst))
      (challenge : sendMessage 'R' (toBeBytes 4 11 ++ utf8Bytes serverFirst ++ [0]) s' =
        .ok () s'') : Passes .challenged s''
  | final {s s' : ConnState} (challenged : Passes .challenged s)
      (answered : readU8 s = .ok 'p'.toUInt8 s') : Passes .credentials s'
  | welcomed {encrypted : Bool} {s s' s'' : ConnState} (started : Passes (.started encrypted) s)
      (admitted : admitClient around server.auth nonce s = .ok true s')
      (greeted : welcome s' = .ok () s'') : Passes .waiting s''
  | served {message : UInt8 × List UInt8} {s s' s'' : ConnState} (waiting : Passes .waiting s)
      (read : readMessage s = .ok (some message) s')
      (handled : handleMessage around message.1 message.2 s' = .ok true s'') : Passes .waiting s''
  | typed {tag : UInt8} {s s' : ConnState} (waiting : Passes .waiting s) (more : s.input ≠ [])
      (read : readU8 s = .ok tag s') : Passes .typed s'
  | query {tag : UInt8} {payload : List UInt8} {s s' : ConnState} (waiting : Passes .waiting s)
      (read : readMessage s = .ok (some (tag, payload)) s') (isQuery : Char.ofUInt8 tag = 'Q')
      (present : readCstring payload ≠ "") : Passes (.running (readCstring payload)) s'
  | execute {tag : UInt8} {payload : List UInt8} {s s' : ConnState} (waiting : Passes .waiting s)
      (read : readMessage s = .ok (some (tag, payload)) s') (isExecute : Char.ofUInt8 tag = 'E')
      (present : s'.conn.lastStatement.getD "" ≠ "") :
      Passes (.running (substituteParams (s'.conn.lastStatement.getD "") s'.conn.portalParams)) s'

/-- A failure that is no crash of the connection's own: an error that is returned, or
what the execution of a text ends in. -/
def Excused (e : ServerFailure) (s' : ConnState) : Prop :=
  Returned e ∨ ∃ sql s, Passes around server nonce start (.running sql) s ∧
    executeSql around sql s = .error e s'

/-- **A connection is safe.** At every stage it comes to, what it acts on leads to an
error or is all there; and no panic ends it but one of the engine that executes a
text. -/
structure Safe : Prop where
  handled : ∀ stage s, Passes around server nonce start stage s → stage.Handled server s
  returns : FailsOnly (Excused around server nonce start)
    (handleConnection around server nonce) start

end Passes

section Returns

variable {accepted : ServerFailure → ConnState → Prop}
  (returned : ∀ e s, Returned e → accepted e s)

include returned

/-- What never panics fails only as it may. -/
theorem Calm.failsOnly {α : Type} {m : ConnM α} (calm : Calm m) (s : ConnState) :
    FailsOnly accepted m s := fun e s' failed => returned e s' (calm s failed)

/-- The body behind a length that fits. -/
theorem failsOnly_readBody {len : Int32} {s s' : ConnState} (fits : LengthFits s)
    (read : readI32 s = .ok len s') : FailsOnly accepted (readBody (asUsize len)) s' := by
  intro e after failed
  obtain ⟨message, after', outcome⟩ | ⟨payload, after', outcome, -⟩ := fits read
  · rw [outcome] at failed
    cases failed
    exact returned _ _ ⟨message, rfl⟩
  · rw [outcome] at failed
    cases failed

/-- A length that fits, and its body. -/
theorem failsOnly_framed {s : ConnState} (fits : LengthFits s) {α : Type}
    {rest : Int32 → List UInt8 → ConnM α} (next : ∀ len s' payload after, readI32 s = .ok len s' →
      readBody (asUsize len) s' = .ok payload after → FailsOnly accepted (rest len payload) after) :
    FailsOnly accepted (do
      let len ← readI32
      let payload ← readBody (asUsize len)
      rest len payload) s := by
  refine .seq (calm_readI32.failsOnly returned s) fun len s' read => ?_
  refine .seq (failsOnly_readBody returned fits read) fun payload after body => ?_
  exact next len s' payload after read body

/-- A SASL message is taken apart with checks. -/
theorem failsOnly_readSaslMessage {s : ConnState}
    (fits : ∀ s', readU8 s = .ok 'p'.toUInt8 s' → LengthFits s') :
    FailsOnly accepted readSaslMessage s := by
  unfold readSaslMessage
  refine .seq (calm_readU8.failsOnly returned s) fun msgType s' read => ?_
  split
  · exact .fail (returned _ _ ⟨_, rfl⟩)
  · next password =>
      rw [not_not.mp password] at read
      refine failsOnly_framed returned (fits s' read) fun len _ payload after _ _ => ?_
      dsimp only
      split
      · exact .fail (returned _ _ ⟨_, rfl⟩)
      · next enough =>
          obtain ⟨version, fetched⟩ := getI32_eq_ok_iff.mpr (not_lt.mp enough)
          rw [fetched]
          refine .seq (FailsOnly.ret _ _) fun entry mid _ => ?_
          split
          · exact .ret _ _
          · split
            · exact .fail (returned _ _ ⟨_, rfl⟩)
            · exact .ret _ _

end Returns

section Runs

variable [Runtime] {around : Surroundings} {server : Server} {nonce : List UInt8}
  {start : ConnState}

/-- An error that is returned is no crash. -/
theorem excused_of_returned (e : ServerFailure) (s : ConnState) (returned : Returned e) :
    Excused around server nonce start e s := .inl returned

section Parts

variable (handled : ∀ stage s, Passes around server nonce start stage s → stage.Handled server s)

include handled

theorem failsOnly_negotiateStream : FailsOnly (Excused around server nonce start)
    (negotiateStream server.tls server.tlsAcceptor) start := by
  have first : server.tls.requireTls = false → LengthFits start :=
    handled .connected start .connected
  unfold negotiateStream
  refine .seq (calm_readI32.failsOnly excused_of_returned start) fun len s read => ?_
  dsimp only
  split
  · next eight =>
      refine .seq (calm_readI32.failsOnly excused_of_returned s) fun code s' readCode => ?_
      split
      · next isRequest =>
          subst isRequest
          split
          · refine .seq ((calm_writeU8 _).failsOnly excused_of_returned s') fun _ s'' _ => ?_
            refine .seq ((calm_acceptTls _).failsOnly excused_of_returned s'') fun _ inside _ => ?_
            exact .ret _ _
          · next refuses =>
              refine .seq ((calm_writeU8 _).failsOnly excused_of_returned s')
                fun _ s'' answered => ?_
              refine failsOnly_framed excused_of_returned
                (handled .declined s'' (.declined refuses read eight readCode answered))
                fun startupLen _ startupBody after _ _ => ?_
              exact .seq ((calm_pushBack _).failsOnly excused_of_returned after) fun _ _ _ =>
                .ret _ _
      · exact .fail (.inl ⟨_, rfl⟩)
  · split
    · refine .seq ((calm_sendError _).failsOnly excused_of_returned s) fun _ s' _ => ?_
      exact .fail (.inl ⟨_, rfl⟩)
    · next notRequired =>
        refine .seq (failsOnly_readBody excused_of_returned
          (first (Bool.not_eq_true _ ▸ notRequired)) read) fun startupBody after _ => ?_
        exact .seq ((calm_pushBack _).failsOnly excused_of_returned after) fun _ _ _ => .ret _ _

theorem failsOnly_authenticateCleartext {encrypted : Bool} {s : ConnState}
    (started : Passes around server nonce start (.started encrypted) s)
    (required : server.auth.required = true) (noScram : server.auth.scramAvailable = false) :
    FailsOnly (Excused around server nonce start) (authenticateCleartext around server.auth) s := by
  unfold authenticateCleartext
  refine .seq ((calm_sendMessage _ _).failsOnly excused_of_returned s) fun _ s' asked => ?_
  refine .seq (calm_readU8.failsOnly excused_of_returned s') fun msgType s'' answered => ?_
  split
  · exact .seq ((calm_sendError _).failsOnly excused_of_returned s'') fun _ _ _ => .ret _ _
  · next password =>
      rw [not_not.mp password] at answered
      refine failsOnly_framed excused_of_returned
        (handled .credentials s'' (.password started required noScram asked answered))
        fun pwLen _ pwBuf after _ _ => ?_
      refine .seq ((calm_emit _).failsOnly excused_of_returned after) fun _ checked _ => ?_
      split
      · exact .seq ((calm_sendError _).failsOnly excused_of_returned checked) fun _ _ _ => .ret _ _
      · exact .ret _ _

theorem failsOnly_authenticateScram {encrypted : Bool} {s : ConnState}
    (started : Passes around server nonce start (.started encrypted) s)
    (required : server.auth.required = true) (scram : server.auth.scramAvailable = true) :
    FailsOnly (Excused around server nonce start)
      (authenticateScram around server.auth nonce) s := by
  have calmLift : ∀ {α : Type} {result : Except ServerFailure α}, CalmResult result →
      ∀ s, FailsOnly (Excused around server nonce start) (lift result) s := fun calm s =>
    (Calm.lift calm).failsOnly excused_of_returned s
  unfold authenticateScram
  refine .seq ((calm_sendMessage _ _).failsOnly excused_of_returned s) fun _ s' offer => ?_
  have offered := Passes.offered started required scram offer
  refine .seq (failsOnly_readSaslMessage excused_of_returned fun s'' answered =>
    handled .credentials s'' (.first offered answered)) fun response mid read => ?_
  dsimp only
  split
  · exact .seq ((calm_sendError _).failsOnly excused_of_returned mid) fun _ _ _ => .ret _ _
  · next supported =>
      refine .seq (calmLift (calmResult_okOr _ _) mid) fun clientFirst mid' decoded => ?_
      obtain ⟨isText, rfl⟩ := lift_eq_ok.mp decoded
      refine .seq (calmLift (calmResult_okOr _ _) mid) fun creds mid' stored => ?_
      obtain ⟨hasCreds, rfl⟩ := lift_eq_ok.mp stored
      refine .seq (calmLift (calmResult_start _ _ _ _) mid) fun entry mid' begun => ?_
      obtain ⟨isBegun, rfl⟩ := lift_eq_ok.mp begun
      refine .seq ((calm_sendMessage _ _).failsOnly excused_of_returned mid) fun _ asked sent => ?_
      have challenged : Passes around server nonce start .challenged asked :=
        .challenged offered read (by tauto) (okOr_eq_ok.mp isText) (okOr_eq_ok.mp hasCreds)
          isBegun sent
      refine .seq (failsOnly_readSaslMessage excused_of_returned fun s'' answered =>
        handled .credentials s'' (.final challenged answered)) fun final mid'' _ => ?_
      refine .seq (calmLift (calmResult_okOr _ _) mid'') fun clientFinal mid'' _ => ?_
      refine .seq ((calm_emit _).failsOnly excused_of_returned _) fun _ noted _ => ?_
      split
      · exact .seq ((calm_sendMessage _ _).failsOnly excused_of_returned noted) fun _ _ _ =>
          .ret _ _
      · exact .seq ((calm_sendError _).failsOnly excused_of_returned noted) fun _ _ _ => .ret _ _

theorem failsOnly_admitClient {encrypted : Bool} {s : ConnState}
    (started : Passes around server nonce start (.started encrypted) s) :
    FailsOnly (Excused around server nonce start) (admitClient around server.auth nonce) s := by
  unfold admitClient authenticate
  split
  · next required =>
      split
      · next scram => exact failsOnly_authenticateScram handled started required scram
      · next noScram =>
          exact failsOnly_authenticateCleartext handled started required
            (Bool.not_eq_true _ ▸ noScram)
  · exact .ret _ _

/-- A text that is run may end in a panic of the engine, and in no other. -/
theorem failsOnly_runSql {sql : String} {s : ConnState}
    (running : Passes around server nonce start (.running sql) s) :
    FailsOnly (Excused around server nonce start) (runSql around sql) s := by
  obtain ⟨preview, hasPreview⟩ := handled _ s running
  unfold runSql
  rw [hasPreview]
  refine .seq (FailsOnly.ret preview s) fun _ s' same => ?_
  obtain ⟨-, rfl⟩ := pure_eq_ok.mp same
  refine .seq (fun e s' failed => .inr ⟨sql, s, running, failed⟩) fun outcome after _ => ?_
  split
  · exact .seq ((calm_modifyConn _).failsOnly excused_of_returned after) fun _ noted _ =>
      (calm_sendQueryResult _).failsOnly excused_of_returned noted
  · exact .seq ((calm_modifyConn _).failsOnly excused_of_returned after) fun _ noted _ =>
      (calm_sendError _).failsOnly excused_of_returned noted

theorem failsOnly_handleMessage {message : UInt8 × List UInt8} {s s' : ConnState}
    (waiting : Passes around server nonce start .waiting s)
    (read : readMessage s = .ok (some message) s') : FailsOnly (Excused around server nonce start)
      (handleMessage around message.1 message.2) s' := by
  obtain ⟨tag, payload⟩ := message
  unfold handleMessage
  dsimp only
  split
  · next isQuery =>
      split
      · exact .ret _ _
      · next present =>
          refine .seq (failsOnly_runSql handled (.query waiting read isQuery present))
            fun _ after _ => ?_
          exact .seq (calm_sendReady.failsOnly excused_of_returned after) fun _ _ _ => .ret _ _
  · exact .seq ((calm_modifyConn _).failsOnly excused_of_returned s') fun _ _ _ => .ret _ _
  · have bound : Calm (lift (handleBind payload s'.conn)) := .lift (calmResult_handleBind _ _)
    refine FailsOnly.seq (fun _ _ => nofun) fun seen mid got => ?_
    obtain ⟨rfl, rfl⟩ := get_eq_ok.mp got
    refine .seq (bound.failsOnly excused_of_returned s') fun conn mid _ => ?_
    exact .seq ((calm_modifyConn _).failsOnly excused_of_returned mid) fun _ _ _ => .ret _ _
  · next isExecute =>
      refine .seq ?_ fun _ _ _ => .ret _ _
      unfold handleExecute
      refine FailsOnly.seq (fun _ _ => nofun) fun seen mid got => ?_
      obtain ⟨rfl, rfl⟩ := get_eq_ok.mp got
      dsimp only
      split
      · exact .ret _ _
      · next present =>
          exact failsOnly_runSql handled (.execute waiting read isExecute present)
  · refine .seq ((calm_modifyConn _).failsOnly excused_of_returned s') fun _ mid _ => ?_
    exact .seq (calm_sendReady.failsOnly excused_of_returned mid) fun _ _ _ => .ret _ _
  · exact .ret _ _
  · exact .ret _ _

theorem failsOnly_readMessage {s : ConnState}
    (waiting : Passes around server nonce start .waiting s) :
    FailsOnly (Excused around server nonce start) readMessage s := by
  unfold readMessage
  refine FailsOnly.seq (fun _ _ => nofun) fun seen mid got => ?_
  obtain ⟨rfl, rfl⟩ := get_eq_ok.mp got
  split
  · exact .ret _ _
  · next more =>
      refine .seq (calm_readU8.failsOnly excused_of_returned s) fun tag mid read => ?_
      refine failsOnly_framed excused_of_returned
        (handled .typed mid (.typed waiting more read)) fun len _ payload after _ _ => ?_
      exact .seq ((calm_emit _).failsOnly excused_of_returned after) fun _ _ _ => .ret _ _

/-- From a stage of the loop on, whatever the client sends. -/
theorem failsOnly_messageLoop (fuel : Nat) {s : ConnState}
    (waiting : Passes around server nonce start .waiting s) :
    FailsOnly (Excused around server nonce start) (messageLoop around fuel) s := by
  induction fuel generalizing s with
  | zero => exact .ret _ _
  | succ fuel ih =>
      unfold messageLoop
      refine .seq (failsOnly_readMessage handled waiting) fun next mid read => ?_
      cases next with
      | none => exact .ret _ _
      | some message =>
          refine .seq (failsOnly_handleMessage handled waiting read) fun goesOn after served => ?_
          cases goesOn with
          | true => exact ih (.served waiting read served)
          | false => exact .ret _ _

/-- **What is handled at every stage ends no connection in a panic.** -/
theorem failsOnly_handleConnection : FailsOnly (Excused around server nonce start)
    (handleConnection around server nonce) start := by
  unfold handleConnection
  refine .seq (failsOnly_negotiateStream handled) fun encrypted s negotiated => ?_
  unfold runSession
  refine .seq ((calm_emit _).failsOnly excused_of_returned s) fun _ s' noted => ?_
  have entered : Passes around server nonce start (.entered encrypted) s' :=
    .entered negotiated noted
  obtain ⟨lengthFits, versionFits⟩ := handled _ s' entered
  refine failsOnly_framed excused_of_returned lengthFits fun len mid buf s'' read body => ?_
  obtain ⟨version, hasVersion⟩ := versionFits read body
  rw [hasVersion]
  refine .seq (FailsOnly.ret version s'') fun _ opened same => ?_
  obtain ⟨-, rfl⟩ := pure_eq_ok.mp same
  split
  · exact (calm_sendError _).failsOnly excused_of_returned s''
  · next allowed =>
      have started : Passes around server nonce start (.started encrypted) s'' :=
        .started entered read body hasVersion (Bool.not_eq_true _ ▸ allowed)
      refine .seq (failsOnly_admitClient handled started) fun ok admitted ran => ?_
      cases ok with
      | false => exact .ret _ _
      | true =>
          refine .seq (calm_welcome.failsOnly excused_of_returned admitted) fun _ greeted ran' => ?_
          exact failsOnly_messageLoop handled _ (.welcomed started ran ran')

end Parts

/-- **A connection is safe exactly if the client keeps in form.** Whatever bytes the
client sends, the lengths, the start-up message and the texts that the connection
comes to are all handled, and no panic but the engine's ends it, if and only if
each is in form where it is met. -/
theorem connection_safe_iff (around : Surroundings) (server : Server) (nonce : List UInt8)
    (start : ConnState) : Safe around server nonce start ↔
      ∀ stage s, Passes around server nonce start stage s → stage.InForm server s := by
  constructor
  · intro safe stage s passes
    exact (stage.handled_iff server s).mp (safe.handled stage s passes)
  · intro inForm
    have handled : ∀ stage s, Passes around server nonce start stage s →
        stage.Handled server s := fun stage s passes =>
      (stage.handled_iff server s).mpr (inForm stage s passes)
    exact ⟨handled, failsOnly_handleConnection handled⟩

end Runs

section Example

/-- A server without TLS and without authentication. -/
def openServer : Server where
  tls := { certPath := none, keyPath := none, requireTls := false }
  tlsAcceptor := none
  auth := { passwordHash := none, scramCredentials := none, requireTlsForPassword := false }

/-- A client that sends some bytes and ends. -/
def sends (input : List UInt8) : ConnState := { passwordClient with input }

/-- How a connection of the open server panics. -/
def panicOf (input : List UInt8) : Option String :=
  match @handleConnection Runtime.reference onePassword openServer [] (sends input) with
  | .error (.panic reason) _ => some reason
  | _ => none

/-- A client that starts up inside a refusal of TLS, and then sends a text of 201
bytes on one line whose last character takes two. -/
def splitsCharacter : List UInt8 :=
  toBeBytes 4 8 ++ toBeBytes 4 80877103 ++ toBeBytes 4 8 ++ toBeBytes 4 196608 ++
    'Q'.toUInt8 :: toBeBytes 4 206 ++ List.replicate 199 'a'.toUInt8 ++ utf8Bytes "é" ++ [0]

/-- A length of −1, a start-up message without a version and a text without a cut
end a connection in a panic each. -/
theorem client_bytes_panic :
    panicOf (toBeBytes 4 (2 ^ 32 - 1)) = some "capacity overflow" ∧
      panicOf (toBeBytes 4 4) = some "advance out of bounds" ∧
      panicOf splitsCharacter = some "byte index is not a char boundary" ∧
      ¬@Safe Runtime.reference onePassword openServer [] (sends (toBeBytes 4 (2 ^ 32 - 1))) := by
  refine ⟨by decide +kernel, by decide +kernel, by decide +kernel, fun safe => ?_⟩
  have fits : Stage.connected.Handled openServer (sends (toBeBytes 4 (2 ^ 32 - 1))) :=
    @Safe.handled Runtime.reference _ _ _ _ safe .connected _
      (@Passes.connected Runtime.reference _ _ _ _)
  obtain requires | short | counts := (Stage.handled_iff _ _ _).mp fits
  · exact nomatch requires
  · exact absurd short (by decide)
  · exact absurd counts (by decide)

end Example

end MoodengSQL
