import MoodengSQL.Server.Accepting
import MoodengSQL.Server.Rows

/-!
# The command-line client in a conversation

`execute_sql` as a party: what it has sent when it has received some bytes, and what it
shows. It sends its start-up message, the text when it has read `ReadyForQuery`, and
`Terminate` when it has read the answer; it has no password to give. What it has sent or
shown, more bytes do not change.
-/

namespace MoodengSQL

open Foundation Effect

namespace Client

section Reading

/-- The loop of `read_until_ready`. -/
def skipToReady : Nat → List UInt8 → Except ServerFailure (List UInt8)
  | 0, _ => .error (.error "failed to fill whole buffer")
  | fuel + 1, input => do
      let (message, input) ← readMessage input
      if message.1 = 'Z'.toUInt8 then return input
      else skipToReady fuel input

/-- `read_until_ready`: what it leaves of the stream. -/
def readUntilReady (input : List UInt8) : Except ServerFailure (List UInt8) :=
  skipToReady input.length input

/-- The `Terminate` message. -/
def terminateMessage : List UInt8 := 'X'.toUInt8 :: toBeBytes 4 4

/-- What `execute_sql` has sent when it has received these bytes. -/
def executeSqlSends (sql : String) (received : List UInt8) : List UInt8 :=
  startupMessage ++ match readUntilReady received with
    | .error _ => []
    | .ok response => queryMessage sql ++ match readResponse response with
        | .error _ => []
        | .ok _ => terminateMessage

/-- `execute_sql`: the output behind these bytes. -/
def executeSql (received : List UInt8) : Except ServerFailure String := do
  let response ← readUntilReady received
  output response

variable {input rest more : List UInt8}

theorem readExact_feed {n : Nat} {taken : List UInt8}
    (read : readExact n input = .ok (taken, rest)) :
    readExact n (input ++ more) = .ok (taken, rest ++ more) := by
  unfold readExact at read ⊢
  split at read
  · next enough =>
      cases read
      have longer : n ≤ (input ++ more).length := by
        rw [List.length_append]
        omega
      rw [if_pos longer, List.take_append_of_le_length enough,
        List.drop_append_of_le_length enough]
  · cases read

/-- A message that has been read is read again when there is more behind it. -/
theorem readMessage_feed {message : UInt8 × List UInt8}
    (read : readMessage input = .ok (message, rest)) :
    readMessage (input ++ more) = .ok (message, rest ++ more) := by
  unfold readMessage at read ⊢
  cases header : readExact 5 input with
  | error e =>
      rw [header] at read
      cases read
  | ok first =>
      rw [header] at read
      rw [readExact_feed header]
      dsimp only [Bind.bind, Except.bind] at read ⊢
      split at read
      · cases read
      · rename_i small
        rw [if_neg small]
        cases body : readExact (asUsize (Int32.ofNat (fromBeBytes (first.1.drop 1))) - 4)
            first.2 with
        | error e =>
            rw [body] at read
            cases read
        | ok second =>
            rw [body] at read
            rw [readExact_feed body]
            cases read
            rfl

theorem skipToReady_feed {fuel longer : Nat} (enough : fuel ≤ longer)
    (read : skipToReady fuel input = .ok rest) :
    skipToReady longer (input ++ more) = .ok (rest ++ more) := by
  induction fuel generalizing input longer with
  | zero => cases read
  | succ fuel ih =>
      obtain ⟨longer, rfl⟩ : ∃ n, longer = n + 1 := ⟨longer - 1, by omega⟩
      rw [skipToReady] at read ⊢
      cases next : readMessage input with
      | error e =>
          rw [next] at read
          cases read
      | ok first =>
          rw [next] at read
          rw [readMessage_feed next]
          dsimp only [Bind.bind, Except.bind] at read ⊢
          split at read
          · rename_i ready
            rw [if_pos ready]
            cases read
            rfl
          · rename_i notReady
            rw [if_neg notReady]
            exact ih (Nat.le_of_succ_le_succ enough) read

theorem messageLoop_feed {fuel longer : Nat} (enough : fuel ≤ longer) {shown : List Shown}
    (read : messageLoop fuel input = .ok (shown, rest)) :
    messageLoop longer (input ++ more) = .ok (shown, rest ++ more) := by
  induction fuel generalizing input longer shown rest with
  | zero => cases read
  | succ fuel ih =>
      obtain ⟨longer, rfl⟩ : ∃ n, longer = n + 1 := ⟨longer - 1, by omega⟩
      rw [messageLoop] at read ⊢
      cases next : readMessage input with
      | error e =>
          rw [next] at read
          cases read
      | ok first =>
          rw [next] at read
          rw [readMessage_feed next]
          dsimp only [Bind.bind, Except.bind] at read ⊢
          split at read
          · rename_i ready
            rw [if_pos ready]
            cases read
            rfl
          · rename_i notReady
            rw [if_neg notReady]
            cases shows : showMessage first.1.1 first.1.2 with
            | error e =>
                rw [shows] at read
                cases read
            | ok now =>
                rw [shows] at read
                dsimp only at read ⊢
                cases later : messageLoop fuel first.2 with
                | error e =>
                    rw [later] at read
                    cases read
                | ok others =>
                    obtain ⟨others, left⟩ := others
                    rw [later] at read
                    rw [ih (Nat.le_of_succ_le_succ enough) later]
                    cases read
                    rfl

theorem readUntilReady_feed (read : readUntilReady input = .ok rest) :
    readUntilReady (input ++ more) = .ok (rest ++ more) := by
  apply skipToReady_feed _ read
  rw [List.length_append]
  exact Nat.le_add_right _ _

theorem readResponse_feed {shown : List Shown} (read : readResponse input = .ok (shown, rest)) :
    readResponse (input ++ more) = .ok (shown, rest ++ more) := by
  apply messageLoop_feed _ read
  rw [List.length_append]
  exact Nat.le_add_right _ _

/-- What the client sends grows with what it receives. -/
theorem executeSqlSends_grows (sql : String) {received later : List UInt8}
    (grows : received <+: later) : executeSqlSends sql received <+: executeSqlSends sql later := by
  obtain ⟨more, rfl⟩ := grows
  unfold executeSqlSends
  rw [List.prefix_append_right_inj]
  cases ready : readUntilReady received with
  | error e => exact List.nil_prefix
  | ok response =>
      rw [readUntilReady_feed ready]
      dsimp only
      rw [List.prefix_append_right_inj]
      cases answered : readResponse response with
      | error e => exact List.nil_prefix
      | ok shown =>
          rw [readResponse_feed answered]

/-- An output stays what it is. -/
theorem executeSql_feed {text : String} (shows : executeSql input = .ok text) :
    executeSql (input ++ more) = .ok text := by
  unfold executeSql output at shows ⊢
  cases ready : readUntilReady input with
  | error e =>
      rw [ready] at shows
      cases shows
  | ok response =>
      rw [ready] at shows
      rw [readUntilReady_feed ready]
      dsimp only [Bind.bind, Except.bind] at shows ⊢
      cases answered : readResponse response with
      | error e =>
          rw [answered] at shows
          cases shows
      | ok shown =>
          rw [answered] at shows
          rw [readResponse_feed answered]
          exact shows

end Reading

section Waiting

/-- The wait for `ReadyForQuery` passes other messages. -/
theorem skipToReady_message {tag : UInt8} {body rest : List UInt8} (notReady : tag ≠ 'Z'.toUInt8)
    (short : body.length + 4 < 2 ^ 31) (fuel : Nat) :
    skipToReady (fuel + 1) ((ConnEvent.message tag body).wireBytes ++ rest) =
      skipToReady fuel rest := by
  rw [skipToReady, readMessage_wireBytes tag short]
  exact if_neg notReady

theorem skipToReady_nil (fuel : Nat) : ∃ e, skipToReady fuel [] = .error e := by
  cases fuel with
  | zero => exact ⟨_, rfl⟩
  | succ fuel => exact ⟨_, rfl⟩

/-- Behind one other message the client still waits. -/
theorem readUntilReady_message {tag : UInt8} {body : List UInt8} (notReady : tag ≠ 'Z'.toUInt8)
    (short : body.length + 4 < 2 ^ 31) :
    ∃ e, readUntilReady (wireBytes [.message tag body]) = .error e := by
  have long : (wireBytes [.message tag body]).length = body.length + 4 + 1 := by
    simp only [wireBytes, List.flatMap_cons, List.flatMap_nil, ConnEvent.wireBytes,
      List.append_nil, List.cons_append, List.length_cons, List.length_append, toBeBytes_length]
    omega
  unfold readUntilReady
  rw [long, wireBytes, List.flatMap_cons, List.flatMap_nil, skipToReady_message notReady short]
  exact skipToReady_nil _

end Waiting

end Client

end MoodengSQL
