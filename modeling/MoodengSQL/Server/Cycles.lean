import MoodengSQL.Server.Disconnect

/-!
# Query cycles

A client that sends a `Query` or a `Sync` message waits for `ReadyForQuery`. The
loop answers every `Sync`, and every `Query` with a text; a `Query` without one is
passed over.
-/

namespace MoodengSQL

open Foundation Effect ConnM

/-- A message of the client: its tag and its payload. -/
abbrev Message := UInt8 × List UInt8

section Processed

variable [Runtime] (around : Surroundings)

/-- The messages the loop has processed to their end, from the state it starts in. -/
inductive Processed (start : ConnState) : List Message → ConnState → Prop
  | start : Processed start [] start
  | message {history : List Message} {message : Message} {s mid s' : ConnState}
      (earlier : Processed start history s) (read : readMessage s = .ok (some message) mid)
      (handled : handleMessage around message.1 message.2 mid = .ok true s') :
      Processed start (history ++ [message]) s'

/-- The first messages of the loop, and the state after them. -/
def runMessages (start : ConnState) : Nat → Option (List Message × ConnState)
  | 0 => some ([], start)
  | count + 1 => match runMessages start count with
      | some (history, s) => match readMessage s with
          | .ok (some message) mid => match handleMessage around message.1 message.2 mid with
              | .ok true s' => some (history ++ [message], s')
              | _ => none
          | _ => none
      | none => none

/-- They have been processed. -/
theorem processed_of_runMessages {start s : ConnState} {history : List Message} (count : Nat)
    (ran : runMessages around start count = some (history, s)) :
    Processed around start history s := by
  induction count generalizing history s with
  | zero =>
      cases ran
      exact .start
  | succ count ih =>
      dsimp only [runMessages] at ran
      cases earlier : runMessages around start count with
      | none =>
          rw [earlier] at ran
          cases ran
      | some reached =>
          rw [earlier] at ran
          dsimp only at ran
          cases read : readMessage reached.2 with
          | error e mid =>
              rw [read] at ran
              cases ran
          | ok next mid =>
              rw [read] at ran
              cases next with
              | none => cases ran
              | some message =>
                  dsimp only at ran
                  cases handled : handleMessage around message.1 message.2 mid with
                  | error e s' =>
                      rw [handled] at ran
                      cases ran
                  | ok goesOn s' =>
                      rw [handled] at ran
                      cases goesOn with
                      | false => cases ran
                      | true =>
                          cases ran
                          exact .message (ih earlier) read handled

end Processed

section Counts

/-- A `ReadyForQuery` message. -/
def isReady : ConnEvent → Bool
  | .message tag _ => tag == 'Z'.toUInt8
  | _ => false

/-- The `ReadyForQuery` messages sent so far. -/
def readies (s : ConnState) : Nat := s.trace.countP isReady

/-- A message that asks for a `ReadyForQuery`: `Query` or `Sync`. -/
def asks (message : Message) : Bool :=
  match Char.ofUInt8 message.1 with
  | 'Q' => true
  | 'S' => true
  | _ => false

/-- A `Query` message whose text is empty, or cannot be read. -/
def emptyQuery (message : Message) : Bool :=
  match Char.ofUInt8 message.1 with
  | 'Q' => readCstring message.2 == ""
  | _ => false

theorem asks_of_emptyQuery {message : Message} (empty : emptyQuery message = true) :
    asks message = true := by
  unfold emptyQuery at empty
  unfold asks
  generalize Char.ofUInt8 message.1 = tag at empty ⊢
  split at empty
  · rfl
  · cases empty

/-- Leaving empty queries out makes a difference exactly when there are some. -/
theorem countP_answered_iff (history : List Message) :
    history.countP (fun message => asks message && !emptyQuery message) = history.countP asks ↔
      ∀ message ∈ history, emptyQuery message = false := by
  induction history with
  | nil => simp
  | cons message rest ih =>
      have fewer : rest.countP (fun message => asks message && !emptyQuery message) ≤
          rest.countP asks :=
        List.countP_mono_left fun other _ answered => (Bool.and_eq_true_iff.mp answered).1
      rw [List.forall_mem_cons, ← ih, List.countP_cons, List.countP_cons]
      cases empty : emptyQuery message with
      | true =>
          simp only [asks_of_emptyQuery empty, Bool.not_true, Bool.and_false, Bool.true_eq_false,
            false_and, iff_false]
          simp only [Bool.false_eq_true, if_false, if_true]
          omega
      | false =>
          simp only [Bool.not_false, Bool.and_true, true_and]
          omega

/-- No `ReadyForQuery` is sent. -/
def SameReadies (s s' : ConnState) : Prop := readies s' = readies s

instance : IsPreorder ConnState SameReadies where
  refl _ := rfl
  trans _ _ _ first second := Eq.trans second first

variable [Runtime] {around : Surroundings} {s s' : ConnState}

omit [Runtime] in
theorem sameReadies_writeAll : Moves SameReadies writeAll := by
  rintro ⟨input, outages, conn, db, trace⟩
  rcases outages with _ | ⟨_ | _, rest⟩ <;> rfl

theorem replies_sameReadies : Replies around SameReadies where
  message tag body notReady := .write fun s => by
    simp [SameReadies, readies, isReady, notReady]
  write := sameReadies_writeAll
  flag _ _ := rfl
  execute sql s := by
    unfold finalState executeSql
    dsimp only
    cases executeText (around.parseSql sql) { s.db with session := s.conn.session } with
    | ok result after => simp [SameReadies, readies, isReady]
    | error e after => cases e <;> simp [SameReadies, readies, isReady]

omit [Runtime] in
theorem sameReadies_takes (s : ConnState) (input : List UInt8) :
    SameReadies s { s with input } := rfl

omit [Runtime] in
/-- A `ReadyForQuery` that went out is one more. -/
theorem readies_of_sendReady {u : Unit} (sent : sendReady s = .ok u s') :
    readies s' = readies s + 1 := by
  unfold sendReady at sent
  rw [get_bind] at sent
  obtain ⟨_, noted, noting, written⟩ := bind_eq_ok.mp sent
  have quiet : SameReadies noted s' := (moves_writes sameReadies_writeAll).of_ok written
  rw [quiet, modify_eq_ok.mp noting]
  simp [readies, isReady]

/-- **What the body of the loop answers**: every message that asks, but for an
empty `Query`. -/
theorem readies_of_handleMessage {message : Message}
    (handled : handleMessage around message.1 message.2 s = .ok true s') :
    readies s' = readies s + if asks message && !emptyQuery message then 1 else 0 := by
  have replies : Replies around SameReadies := replies_sameReadies
  unfold handleMessage at handled
  unfold asks emptyQuery
  generalize Char.ofUInt8 message.1 = tag at handled ⊢
  split at handled
  · dsimp only at handled
    split at handled
    · next empty =>
        obtain ⟨-, rfl⟩ := pure_eq_ok.mp handled
        simp [empty]
    · next text =>
        obtain ⟨_, mid, ran, handled⟩ := bind_eq_ok.mp handled
        obtain ⟨_, answered, sent, handled⟩ := bind_eq_ok.mp handled
        obtain ⟨-, rfl⟩ := pure_eq_ok.mp handled
        have quiet : SameReadies s mid := (replies.runSql _).of_ok ran
        rw [readies_of_sendReady sent, quiet]
        simp [text]
  · obtain ⟨_, mid, kept, handled⟩ := bind_eq_ok.mp handled
    obtain ⟨-, rfl⟩ := pure_eq_ok.mp handled
    rw [modify_eq_ok.mp kept]
    rfl
  · rw [get_bind] at handled
    obtain ⟨conn, mid, bound, handled⟩ := bind_eq_ok.mp handled
    obtain ⟨_, mid', kept, handled⟩ := bind_eq_ok.mp handled
    obtain ⟨-, rfl⟩ := pure_eq_ok.mp handled
    rw [modify_eq_ok.mp kept, (lift_eq_ok.mp bound).2]
    rfl
  · obtain ⟨_, mid, ran, handled⟩ := bind_eq_ok.mp handled
    obtain ⟨-, rfl⟩ := pure_eq_ok.mp handled
    exact replies.handleExecute.of_ok ran
  · obtain ⟨_, mid, kept, handled⟩ := bind_eq_ok.mp handled
    obtain ⟨_, answered, sent, handled⟩ := bind_eq_ok.mp handled
    obtain ⟨-, rfl⟩ := pure_eq_ok.mp handled
    rw [readies_of_sendReady sent, modify_eq_ok.mp kept]
    rfl
  · exact nomatch (pure_eq_ok.mp handled).1
  · next other =>
      obtain ⟨-, rfl⟩ := pure_eq_ok.mp handled
      simp

/-- What the loop has answered when it has processed some messages. -/
theorem readies_of_processed {start : ConnState} {history : List Message}
    (processed : Processed around start history s) :
    readies s = readies start +
      history.countP fun message => asks message && !emptyQuery message := by
  induction processed with
  | start => rfl
  | @message history message s mid s' earlier read handled ih =>
      have quiet : SameReadies s mid := by
        refine Moves.of_ok (moves_readMessage sameReadies_takes fun tag payload => ?_) read
        exact .write fun s => by simp [SameReadies, readies, isReady]
      rw [readies_of_handleMessage handled, quiet, ih, List.countP_append, List.countP_singleton]
      omega

/-- **The loop answers every `Query` and every `Sync` exactly when no `Query` is
empty.** -/
theorem ready_for_each_iff {start : ConnState} {history : List Message}
    (processed : Processed around start history s) :
    readies s = readies start + history.countP asks ↔
      ∀ message ∈ history, emptyQuery message = false := by
  rw [readies_of_processed processed, Nat.add_left_cancel_iff]
  exact countP_answered_iff history

end Counts

section Example

/-- A client that sends an empty `Query`, and a `Sync`. -/
def asksNothing : ConnState :=
  { passwordClient with
    input := 'Q'.toUInt8 :: toBeBytes 4 5 ++ [0] ++ 'S'.toUInt8 :: toBeBytes 4 4 }

/-- Its `Query` is processed. -/
theorem asksNothing_processed : ∃ s, readies s = readies asksNothing ∧
    @Processed Runtime.reference onePassword asksNothing [('Q'.toUInt8, [0])] s := by
  refine ⟨{ asksNothing with
    input := 'S'.toUInt8 :: toBeBytes 4 4, trace := [.received 'Q'.toUInt8 [0]] }, rfl, ?_⟩
  exact @Processed.message Runtime.reference onePassword _ [] _ _ _ _
    (@Processed.start Runtime.reference _ _) rfl rfl

/-- Nobody answers it. -/
theorem empty_query_unanswered : ∃ history s,
    @Processed Runtime.reference onePassword asksNothing history s ∧
      readies s ≠ readies asksNothing + history.countP asks := by
  obtain ⟨s, none, processed⟩ := asksNothing_processed
  refine ⟨_, s, processed, ?_⟩
  rw [none]
  decide

/-- A client that sends a text, and a `Sync`. -/
def asksTwice : ConnState :=
  { passwordClient with
    input := 'Q'.toUInt8 :: toBeBytes 4 13 ++ utf8Bytes "SELECT 1\x00" ++
      'S'.toUInt8 :: toBeBytes 4 4 }

/-- What it sends. -/
def twiceHistory : List Message := [('Q'.toUInt8, utf8Bytes "SELECT 1\x00"), ('S'.toUInt8, [])]

theorem asksTwice_processed : ∃ s,
    @Processed Runtime.reference onePassword asksTwice twiceHistory s := by
  have checked : (@runMessages Runtime.reference onePassword asksTwice 2).any (fun reached =>
      decide (reached.1 = twiceHistory)) = true := by decide +kernel
  obtain ⟨⟨history, s⟩, ran, same⟩ := (Option.any_eq_true ..).mp checked
  obtain rfl := of_decide_eq_true same
  exact ⟨s, @processed_of_runMessages Runtime.reference _ _ _ _ 2 ran⟩

/-- The empty text is not answered; a text and a `Sync` are, each by one message. -/
theorem ready_for_each_iff_nothing :
    (∃ s, ¬readies s = readies asksNothing + [('Q'.toUInt8, ([0] : List UInt8))].countP asks) ∧
      ∃ s, @Processed Runtime.reference onePassword asksTwice twiceHistory s ∧
        readies s = readies asksTwice + 2 := by
  constructor
  · obtain ⟨s, -, processed⟩ := asksNothing_processed
    refine ⟨s, fun answered => ?_⟩
    have full := (@ready_for_each_iff Runtime.reference _ _ _ _ processed).mp answered
    exact absurd (full _ (List.mem_singleton_self _)) (by decide)
  · obtain ⟨s, processed⟩ := asksTwice_processed
    have answered := (@ready_for_each_iff Runtime.reference _ _ _ _ processed).mpr
      (by decide +kernel)
    exact ⟨s, processed, answered⟩

end Example

end MoodengSQL
