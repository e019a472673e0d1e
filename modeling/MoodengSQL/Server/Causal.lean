import MoodengSQL.Foundation.Conversation
import MoodengSQL.Server.Accepting
import MoodengSQL.Server.Client

/-!
# What the server says before the next byte

The handler of a connection reads as its bytes arrive. What it has done by the time it
waits for more is what it does on the bytes so far: with more bytes behind them it does
the same, and then goes on. TLS is left out here, whose handshake takes the whole stream.
-/

namespace MoodengSQL

open Foundation Effect ConnM

/-- The connection with more to come from the client. -/
def ConnState.feed (s : ConnState) (more : List UInt8) : ConnState :=
  { s with input := s.input ++ more }

section Rules

variable {α β : Type}

/-- Whatever has been done is still done when there is more input, and nothing is taken
back. -/
structure Forwards (m : ConnM α) : Prop where
  grows : ∀ s, s.trace <+: (finalState m s).trace
  feeds : ∀ s more, (finalState m s).trace <+: (finalState m (s.feed more)).trace

/-- With more input the computation ends as it did and leaves the rest, or it had failed
for want of it. -/
structure Causal (m : ConnM α) : Prop where
  grows : ∀ s, s.trace <+: (finalState m s).trace
  feeds : ∀ s more, (∃ a t, m s = .ok a t ∧ m (s.feed more) = .ok a (t.feed more)) ∨
    ∃ e t, m s = .error e t ∧ t.trace <+: (finalState m (s.feed more)).trace

theorem Causal.forwards {m : ConnM α} (causal : Causal m) : Forwards m := by
  refine ⟨causal.grows, fun s more => ?_⟩
  rcases causal.feeds s more with ⟨a, t, ran, fed⟩ | ⟨e, t, ran, heard⟩
  · rw [finalState_of_ok ran, finalState_of_ok fed]
    exact List.prefix_rfl
  · rw [finalState_of_error ran]
    exact heard

theorem grows_bind {m : ConnM α} {f : α → ConnM β}
    (next : ∀ a s, s.trace <+: (finalState (f a) s).trace) (s : ConnState) :
    (finalState m s).trace <+: (finalState (m >>= f) s).trace := by
  cases ran : m s with
  | ok a t =>
      rw [finalState_of_ok ran, finalState_bind_of_ok ran]
      exact next a t
  | error e t =>
      rw [finalState_of_error ran, finalState_bind_of_error ran]

/-- A computation goes on after a causal one. -/
theorem Causal.then {m : ConnM α} {f : α → ConnM β} (first : Causal m)
    (next : ∀ a, Forwards (f a)) : Forwards (m >>= f) := by
  have later := grows_bind (m := m) fun a => (next a).grows
  refine ⟨fun s => (first.grows s).trans (later s), fun s more => ?_⟩
  rcases first.feeds s more with ⟨a, t, ran, fed⟩ | ⟨e, t, ran, heard⟩
  · rw [finalState_bind_of_ok ran, finalState_bind_of_ok fed]
    exact (next a).feeds t more
  · rw [finalState_bind_of_error ran]
    exact heard.trans (later _)

namespace Causal

theorem ret (a : α) : Causal (pure a : ConnM α) :=
  ⟨fun _ => List.prefix_rfl, fun s _ => .inl ⟨a, s, rfl, rfl⟩⟩

theorem fail (e : ServerFailure) : Causal (throw e : ConnM α) :=
  ⟨fun _ => List.prefix_rfl, fun s _ => .inr ⟨e, s, rfl, List.prefix_rfl⟩⟩

theorem seq {m : ConnM α} {f : α → ConnM β} (first : Causal m) (next : ∀ a, Causal (f a)) :
    Causal (m >>= f) := by
  have later := grows_bind (m := m) fun a => (next a).grows
  refine ⟨fun s => (first.grows s).trans (later s), fun s more => ?_⟩
  rcases first.feeds s more with ⟨a, t, ran, fed⟩ | ⟨e, t, ran, heard⟩
  · rcases (next a).feeds t more with ⟨b, u, ran', fed'⟩ | ⟨e, u, ran', heard⟩
    · exact .inl ⟨b, u, (bind_of_ok ran).trans ran', (bind_of_ok fed).trans fed'⟩
    · refine .inr ⟨e, u, (bind_of_ok ran).trans ran', ?_⟩
      rwa [finalState_bind_of_ok fed]
  · exact .inr ⟨e, t, bind_eq_error.mpr (.inl ran), heard.trans (later _)⟩

/-- A change of the state that does not look at the input. -/
theorem write {f : ConnState → ConnState} (spoken : ∀ s, s.trace <+: (f s).trace)
    (blind : ∀ s more, f (s.feed more) = (f s).feed more) : Causal (modify f : ConnM Unit) := by
  refine ⟨spoken, fun s more => .inl ⟨(), f s, rfl, ?_⟩⟩
  rw [← blind]
  rfl

/-- A look at the state, other than its input. -/
theorem ask {f : ConnState → ConnM α} (blind : ∀ s more, f (s.feed more) = f s)
    (next : ∀ s, Causal (f s)) : Causal (get >>= f) := by
  refine ⟨fun s => (next s).grows s, fun s more => ?_⟩
  have asked : (get >>= f) (s.feed more) = f s (s.feed more) := congrFun (blind s more) _
  rcases (next s).feeds s more with ⟨a, t, ran, fed⟩ | ⟨e, t, ran, heard⟩
  · exact .inl ⟨a, t, ran, asked.trans fed⟩
  · refine .inr ⟨e, t, ran, ?_⟩
    rwa [finalState, asked]

theorem lift (result : Except ServerFailure α) : Causal (ConnM.lift result) := by
  cases result with
  | ok a => exact .ret a
  | error e => exact .fail e

theorem readExact (n : Nat) : Causal (readExact n) := by
  have cut (s : ConnState) (short : ¬n ≤ s.input.length) :
      ConnM.readExact n s = .error (.error "early eof") { s with input := [] } := if_neg short
  have taken (s : ConnState) (enough : n ≤ s.input.length) :
      ConnM.readExact n s = .ok (s.input.take n) { s with input := s.input.drop n } := if_pos enough
  have grows (s : ConnState) : s.trace <+: (finalState (ConnM.readExact n) s).trace := by
    by_cases enough : n ≤ s.input.length
    · rw [finalState_of_ok (taken s enough)]
    · rw [finalState_of_error (cut s enough)]
  refine ⟨grows, fun s more => ?_⟩
  by_cases enough : n ≤ s.input.length
  · refine .inl ⟨_, _, taken s enough, ?_⟩
    have longer : n ≤ (s.feed more).input.length := by
      rw [ConnState.feed, List.length_append]
      omega
    rw [taken _ longer]
    dsimp only [ConnState.feed]
    rw [List.take_append_of_le_length enough, List.drop_append_of_le_length enough]
  · exact .inr ⟨_, _, cut s enough, grows (s.feed more)⟩

theorem readU8 : Causal readU8 := .seq (.readExact 1) fun _ => .ret _

theorem readI32 : Causal readI32 := .seq (.readExact 4) fun _ => .ret _

theorem readBody (len : Nat) : Causal (readBody len) := by
  unfold MoodengSQL.readBody
  split
  · exact .fail _
  · exact .readExact _

theorem emit (event : ConnEvent) : Causal (emit event) :=
  .write (fun _ => List.prefix_append _ _) fun _ _ => rfl

theorem modifyConn (f : ConnectionSession → ConnectionSession) : Causal (modifyConn f) :=
  .write (fun _ => List.prefix_rfl) fun _ _ => rfl

theorem pushBack (bytes : List UInt8) : Causal (pushBack bytes) := by
  refine .write (fun _ => List.prefix_rfl) fun s more => ?_
  dsimp only [ConnState.feed]
  rw [List.append_assoc]

theorem writeAll : Causal writeAll := by
  constructor
  · intro s
    obtain ⟨input, outages, conn, db, trace⟩ := s
    rcases outages with _ | ⟨_ | _, rest⟩ <;> exact List.prefix_rfl
  · intro s more
    obtain ⟨input, outages, conn, db, trace⟩ := s
    rcases outages with _ | ⟨_ | _, rest⟩
    · exact .inl ⟨(), _, rfl, rfl⟩
    · exact .inl ⟨(), _, rfl, rfl⟩
    · exact .inr ⟨_, _, rfl, List.prefix_rfl⟩

theorem sendMessage (tag : Char) (body : List UInt8) : Causal (sendMessage tag body) :=
  .seq (.emit _) fun _ => .seq .writeAll fun _ => .seq .writeAll fun _ => .writeAll

theorem sendError (msg : String) : Causal (sendError msg) := .sendMessage _ _

theorem sendReady : Causal sendReady := .ask (fun _ _ => rfl) fun _ => .sendMessage _ _

end Causal

end Rules

section Admission

variable (around : Surroundings) (auth : AuthConfig) (nonce : List UInt8)

theorem causal_negotiateStream (tls : TlsSettings) : Causal (negotiateStream tls none) := by
  unfold negotiateStream
  refine .seq .readI32 fun len => ?_
  dsimp only
  split
  · refine .seq .readI32 fun code => ?_
    split
    · refine .seq (.seq (.emit _) fun _ => .writeAll) fun _ => .seq .readI32 fun startupLen => ?_
      exact .seq (.readBody _) fun _ => .seq (.pushBack _) fun _ => .ret _
    · exact .fail _
  · split
    · exact .seq (.sendError _) fun _ => .fail _
    · exact .seq (.readBody _) fun _ => .seq (.pushBack _) fun _ => .ret _

theorem causal_authenticateCleartext : Causal (authenticateCleartext around auth) := by
  unfold authenticateCleartext
  refine .seq (.sendMessage _ _) fun _ => .seq .readU8 fun msgType => ?_
  split
  · exact .seq (.sendError _) fun _ => .ret _
  · refine .seq .readI32 fun pwLen => .seq (.readBody _) fun pwBuf => .seq (.emit _) fun _ => ?_
    split
    · exact .seq (.sendError _) fun _ => .ret _
    · exact .ret _

theorem causal_readSaslMessage : Causal readSaslMessage := by
  unfold readSaslMessage
  refine .seq .readU8 fun msgType => ?_
  split
  · exact .fail _
  · refine .seq .readI32 fun msgLen => .seq (.readBody _) fun payload => ?_
    dsimp only
    split
    · exact .fail _
    · refine .seq (.lift _) fun read => ?_
      split
      · exact .ret _
      · split
        · exact .fail _
        · exact .ret _

theorem causal_authenticateScram : Causal (authenticateScram around auth nonce) := by
  unfold authenticateScram
  refine .seq (.sendMessage _ _) fun _ => .seq causal_readSaslMessage fun first => ?_
  dsimp only
  split
  · exact .seq (.sendError _) fun _ => .ret _
  · refine .seq (.lift _) fun clientFirst => .seq (.lift _) fun creds => ?_
    refine .seq (.lift _) fun started => ?_
    refine .seq (.sendMessage _ _) fun _ => .seq causal_readSaslMessage fun second => ?_
    refine .seq (.lift _) fun clientFinal => .seq (.emit _) fun _ => ?_
    split
    · exact .seq (.sendMessage _ _) fun _ => .ret _
    · exact .seq (.sendError _) fun _ => .ret _

theorem causal_admitClient : Causal (admitClient around auth nonce) := by
  unfold admitClient authenticate
  split
  · split
    · exact causal_authenticateScram around auth nonce
    · exact causal_authenticateCleartext around auth
  · exact .ret _

theorem causal_welcome : Causal welcome := by
  have parameters (entries : List (String × String)) : Causal (sendParameters entries) := by
    induction entries with
    | nil => exact .ret _
    | cons entry rest ih => exact .seq (.sendMessage _ _) fun _ => ih
  refine .seq (.sendMessage _ _) fun _ => .seq (parameters _) fun _ => ?_
  exact .seq (.sendMessage _ _) fun _ => .modifyConn _

/-- What comes before the message loop is causal. -/
theorem causal_enterSession {server : Server} (plain : server.tlsAcceptor = none) :
    Causal (enterSession around server nonce) := by
  unfold enterSession
  rw [plain]
  refine .seq (causal_negotiateStream _) fun encrypted => .seq (.emit _) fun _ => ?_
  refine .seq .readI32 fun len => .seq (.readBody _) fun buf => .seq (.lift _) fun version => ?_
  split
  · exact .seq (.sendError _) fun _ => .ret _
  · refine .seq (causal_admitClient around _ nonce) fun admitted => ?_
    split
    · exact .seq causal_welcome fun _ => .ret _
    · exact .ret _

end Admission

section Serving

variable [Runtime] (around : Surroundings)

theorem causal_executeSql (sql : String) : Causal (executeSql around sql) := by
  have noted (s : ConnState) : s.trace <+: (finalState (executeSql around sql) s).trace := by
    unfold finalState executeSql
    dsimp only
    cases executeText (around.parseSql sql) { s.db with session := s.conn.session } with
    | ok result after => exact List.prefix_append _ _
    | error e after => cases e <;> exact List.prefix_append _ _
  refine ⟨noted, fun s more => ?_⟩
  unfold executeSql finalState
  dsimp only [ConnState.feed]
  cases executeText (around.parseSql sql) { s.db with session := s.conn.session } with
  | ok result after => exact .inl ⟨_, _, rfl, rfl⟩
  | error e after =>
      cases e with
      | error e => exact .inl ⟨_, _, rfl, rfl⟩
      | panic reason => exact .inr ⟨_, _, rfl, List.prefix_rfl⟩

theorem causal_sendQueryResult (result : QueryResult) : Causal (sendQueryResult result) := by
  have rows (rows : List Row) : Causal (sendRows rows) := by
    induction rows with
    | nil => exact .ret _
    | cons row rest ih => exact .seq (.sendMessage _ _) fun _ => ih
  unfold sendQueryResult
  split
  · exact .sendMessage _ _
  · exact .seq (.sendMessage _ _) fun _ => .seq (rows _) fun _ => .sendMessage _ _

theorem causal_runSql (sql : String) : Causal (runSql around sql) := by
  unfold runSql
  refine .seq (.lift _) fun _ => .seq (causal_executeSql around sql) fun outcome => ?_
  cases outcome with
  | ok result => exact .seq (.modifyConn _) fun _ => causal_sendQueryResult result
  | error e => exact .seq (.modifyConn _) fun _ => .sendError _

theorem causal_handleMessage (msgType : UInt8) (payload : List UInt8) :
    Causal (handleMessage around msgType payload) := by
  unfold handleMessage
  split
  · dsimp only
    split
    · exact .ret _
    · exact .seq (causal_runSql around _) fun _ => .seq .sendReady fun _ => .ret _
  · exact .seq (.modifyConn _) fun _ => .ret _
  · refine .ask (fun _ _ => rfl) fun s => ?_
    exact .seq (.lift _) fun _ => .seq (.modifyConn _) fun _ => .ret _
  · refine .seq (.ask (fun _ _ => rfl) fun s => ?_) fun _ => .ret _
    dsimp only
    split
    · exact .ret _
    · exact causal_runSql around _
  · exact .seq (.modifyConn _) fun _ => .seq .sendReady fun _ => .ret _
  · exact .ret _
  · exact .ret _

omit [Runtime] in
/-- A message that has begun is read as it arrives. -/
theorem readMessage_feeds {s : ConnState} (begun : s.input ≠ []) (more : List UInt8) :
    (∃ next t, readMessage s = .ok (some next) t ∧
        readMessage (s.feed more) = .ok (some next) (t.feed more)) ∨
      ∃ e t, readMessage s = .error e t ∧
        t.trace <+: (finalState readMessage (s.feed more)).trace := by
  let frame : ConnM (UInt8 × List UInt8) := do
    let msgType ← readU8
    let len := asUsize (← readI32)
    let payload ← readBody len
    emit (.received msgType payload)
    return (msgType, payload)
  have causal : Causal frame := .seq .readU8 fun _ => .seq .readI32 fun _ =>
    .seq (.readBody _) fun _ => .seq (.emit _) fun _ => .ret _
  have framed {s : ConnState} (begun : s.input ≠ []) :
      readMessage s = (do return some (← frame)) s := by
    unfold readMessage
    rw [get_bind, if_neg begun]
    simp only [frame, bind_assoc, pure_bind]
  have still : (s.feed more).input ≠ [] := by
    intro none
    exact begun (List.append_eq_nil_iff.mp none).1
  rw [framed begun, finalState, framed still]
  rcases causal.feeds s more with ⟨next, t, ran, fed⟩ | ⟨e, t, ran, heard⟩
  · exact .inl ⟨next, t, bind_of_ok ran, bind_of_ok fed⟩
  · refine .inr ⟨e, t, bind_eq_error.mpr (.inl ran), ?_⟩
    exact heard.trans (grows_bind (fun _ _ => List.prefix_rfl) _)

omit [Runtime] in
theorem readMessage_grows (s : ConnState) : s.trace <+: (finalState readMessage s).trace := by
  unfold readMessage
  change _ <+: (finalState (if s.input = [] then _ else _) s).trace
  split
  · exact List.prefix_rfl
  · apply Causal.grows
    exact .seq .readU8 fun _ => .seq .readI32 fun _ => .seq (.readBody _) fun _ =>
      .seq (.emit _) fun _ => .ret _

theorem messageLoop_grows (fuel : Nat) (s : ConnState) :
    s.trace <+: (finalState (messageLoop around fuel) s).trace := by
  induction fuel generalizing s with
  | zero => exact List.prefix_rfl
  | succ fuel ih =>
      refine (readMessage_grows s).trans (grows_bind (fun next t => ?_) s)
      cases next with
      | none => exact List.prefix_rfl
      | some message =>
          refine ((causal_handleMessage around _ _).grows t).trans
            (grows_bind (fun goesOn u => ?_) t)
          cases goesOn with
          | true => exact ih u
          | false => exact List.prefix_rfl

/-- The message loop has handled the messages that have arrived, and goes on when more do. -/
theorem messageLoop_feeds {fuel longer : Nat} {s : ConnState} {more : List UInt8}
    (enough : s.input.length < fuel) (enough' : (s.feed more).input.length < longer) :
    (finalState (messageLoop around fuel) s).trace <+:
      (finalState (messageLoop around longer) (s.feed more)).trace := by
  induction fuel generalizing s longer with
  | zero => omega
  | succ fuel ih =>
      obtain ⟨longer, rfl⟩ : ∃ n, longer = n + 1 := ⟨longer - 1, by omega⟩
      by_cases begun : s.input = []
      · have waits : readMessage s = .ok none s := by
          unfold readMessage
          rw [get_bind, if_pos begun]
          rfl
        have still : finalState (messageLoop around (fuel + 1)) s = s := by
          rw [messageLoop, finalState_bind_of_ok waits]
          rfl
        rw [still]
        exact messageLoop_grows around (longer + 1) (s.feed more)
      · rw [messageLoop, messageLoop]
        rcases readMessage_feeds begun more with ⟨next, t, read, fed⟩ | ⟨e, t, read, heard⟩
        · rw [finalState_bind_of_ok read, finalState_bind_of_ok fed]
          have shorter := length_of_readMessage read
          have shorter' := length_of_readMessage fed
          rcases (causal_handleMessage around next.1 next.2).feeds t more with
            ⟨goesOn, u, ran, fed⟩ | ⟨e, u, ran, heard⟩
          · dsimp only
            rw [finalState_bind_of_ok ran, finalState_bind_of_ok fed]
            have same : u.input = t.input := ((serves_sameInput around).handleMessage _ _).of_ok ran
            have same' : (u.feed more).input = (t.feed more).input :=
              ((serves_sameInput around).handleMessage _ _).of_ok fed
            cases goesOn with
            | false => exact List.prefix_rfl
            | true =>
                apply ih
                · rw [same]
                  omega
                · rw [same']
                  omega
          · dsimp only
            rw [finalState_bind_of_error ran]
            refine heard.trans (grows_bind (fun goesOn v => ?_) _)
            cases goesOn with
            | true => exact messageLoop_grows around longer v
            | false => exact List.prefix_rfl
        · rw [finalState_bind_of_error read]
          refine heard.trans (grows_bind (fun next v => ?_) _)
          cases next with
          | none => exact List.prefix_rfl
          | some message =>
              refine ((causal_handleMessage around _ _).grows v).trans
                (grows_bind (fun goesOn w => ?_) v)
              cases goesOn with
              | true => exact messageLoop_grows around longer w
              | false => exact List.prefix_rfl

/-- The whole connection only goes on. -/
theorem forwards_handleConnection {server : Server} (plain : server.tlsAcceptor = none)
    (nonce : List UInt8) : Forwards (handleConnection around server nonce) := by
  rw [handleConnection_eq]
  apply (causal_enterSession around nonce plain).then
  intro entered
  cases entered with
  | false => exact (Causal.ret ()).forwards
  | true =>
      refine ⟨fun s => messageLoop_grows around _ s, fun s more => ?_⟩
      exact messageLoop_feeds around (Nat.lt_succ_self _) (Nat.lt_succ_self _)

end Serving

section Sending

variable [Runtime] (around : Surroundings) (server : Server) (nonce : List UInt8)

/-- A connection that has received these bytes, and waits for more or has ended. -/
def served (start : ConnState) (received : List UInt8) : ConnState :=
  finalState (handleConnection around server nonce) { start with input := received }

/-- What the server has sent by then. -/
def serverSends (start : ConnState) (received : List UInt8) : List UInt8 :=
  wireBytes (served around server nonce start received).trace

/-- What the server has done stands: with more bytes it does the same, and goes on. -/
theorem served_grows {server : Server} (plain : server.tlsAcceptor = none) (start : ConnState)
    {received more : List UInt8} (later : received <+: more) :
    (served around server nonce start received).trace <+:
      (served around server nonce start more).trace := by
  obtain ⟨rest, rfl⟩ := later
  exact (forwards_handleConnection around plain nonce).feeds { start with input := received } rest

end Sending

end MoodengSQL
