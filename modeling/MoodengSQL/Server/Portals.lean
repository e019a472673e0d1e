import MoodengSQL.Server.Cycles

/-!
# What Execute runs

`Parse` keeps a text under a name, `Bind` names the text to run and gives its
parameters, `Execute` runs it. The text of an unnamed statement and the text that
is bound share one slot, and a `Bind` of an unknown or an empty name leaves the
slot alone; the slot is compared with what the messages say should be run.
-/

namespace MoodengSQL

open Foundation Effect ConnM

section Histories

/-- The text a message gives under a name. -/
def textUnder (name : String) (message : Message) : Option String :=
  match Char.ofUInt8 message.1 with
  | 'P' =>
      let entry := readCstringBuf message.2
      if entry.1 = name then some (readCstringBuf entry.2).1 else none
  | _ => none

/-- The text most recently given under a name. -/
def parsedText (history : List Message) (name : String) : Option String :=
  (history.filterMap (textUnder name)).getLast?

/-- What a `Bind` message says: the name of a statement, and its parameters if it
has any. -/
structure Binding where
  statement : String
  params : Option (List (Option String))
  deriving DecidableEq

/-- The binding of a message. -/
def bindingOf (message : Message) : Option Binding :=
  match Char.ofUInt8 message.1 with
  | 'B' =>
      let entry := readCstringBuf (readCstringBuf message.2).2
      some { statement := entry.1, params := (boundParams entry.2).toOption.join }
  | _ => none

/-- The most recent binding, with the messages before it. -/
def lastBinding : List Message → Option (List Message × Binding)
  | [] => none
  | message :: rest => match lastBinding rest with
      | some (earlier, binding) => some (message :: earlier, binding)
      | none => (bindingOf message).map fun binding => ([], binding)

/-- When the text under the bound name is looked up: at the `Bind`, or at the
`Execute`. -/
inductive Moment where
  | bind
  | execute

/-- The statement `Execute` is to run after some messages: the text under the name
of the most recent `Bind`, with the parameters of that `Bind`. -/
def boundSql (moment : Moment) (history : List Message) : Option String :=
  match lastBinding history with
  | none => none
  | some (earlier, binding) =>
      let upTo := match moment with
        | .bind => earlier
        | .execute => history
      (parsedText upTo binding.statement).map fun text =>
        substituteParams text (binding.params.getD [])

/-- The text a message puts in the slot: an unnamed `Parse` its own, a `Bind` the
one of a name given before. -/
def putsText (earlier : List Message) (message : Message) : Option String :=
  match bindingOf message with
  | some binding =>
      if binding.statement = "" then none else parsedText earlier binding.statement
  | none => textUnder "" message

/-- The text most recently put in the slot by some messages that come after others. -/
def slotFrom (earlier : List Message) : List Message → Option String
  | [] => none
  | message :: rest => (slotFrom (earlier ++ [message]) rest).or (putsText earlier message)

/-- The parameters most recently given. -/
def givenParams (history : List Message) : List (Option String) :=
  (history.filterMap fun message => (bindingOf message).bind Binding.params).getLast?.getD []

/-- The statement in the slot, unless its text is empty. -/
def slotSql (history : List Message) : Option String :=
  ((slotFrom [] history).filter (· ≠ "")).map fun text =>
    substituteParams text (givenParams history)

/-- The preview of a statement can be cut. -/
def canPreview (sql : String) : Bool := (summarizeSql sql).toOption.isSome

/-- The slot holds what was bound, and the preview of it can be cut; where nothing
was bound, the slot is empty, or nothing but a panic comes of it. -/
def HoldsBound (moment : Moment) (history : List Message) : Prop :=
  match boundSql moment history with
  | some sql => slotSql history = some sql ∧ canPreview sql = true
  | none => ∀ sql, slotSql history = some sql → canPreview sql = false

theorem textUnder_of_ne {message : Message} (other : Char.ofUInt8 message.1 ≠ 'P')
    (name : String) : textUnder name message = none := by
  unfold textUnder
  generalize Char.ofUInt8 message.1 = tag at other
  split
  · exact absurd rfl other
  · rfl

theorem bindingOf_of_ne {message : Message} (other : Char.ofUInt8 message.1 ≠ 'B') :
    bindingOf message = none := by
  unfold bindingOf
  generalize Char.ofUInt8 message.1 = tag at other
  split
  · exact absurd rfl other
  · rfl

theorem slotFrom_concat (earlier history : List Message) (message : Message) :
    slotFrom earlier (history ++ [message]) =
      (putsText (earlier ++ history) message).or (slotFrom earlier history) := by
  induction history generalizing earlier with
  | nil => simp [slotFrom]
  | cons first rest ih =>
      simp only [List.cons_append, slotFrom, ih, List.append_assoc, List.nil_append]
      exact Option.or_assoc

theorem parsedText_concat (history : List Message) (message : Message) (name : String) :
    parsedText (history ++ [message]) name =
      (textUnder name message).or (parsedText history name) := by
  unfold parsedText
  rw [List.filterMap_append]
  cases given : textUnder name message with
  | none => simp [given]
  | some text => simp [given]

end Histories

namespace ConnectionSession

variable (conn : ConnectionSession) (params : Option (List (Option String))) (statement : String)

@[simp] theorem prepared_withParams : (conn.withParams params).prepared = conn.prepared := by
  cases params <;> rfl

@[simp] theorem lastStatement_withParams :
    (conn.withParams params).lastStatement = conn.lastStatement := by
  cases params <;> rfl

@[simp] theorem portalParams_withParams :
    (conn.withParams params).portalParams = params.getD conn.portalParams := by
  cases params <;> rfl

/-- A `Bind` of a name that is not known leaves the slot alone. -/
theorem withStatement_eq : conn.withStatement statement = { conn with
    lastStatement := (if statement = "" then none else conn.prepared[statement]?).or
      conn.lastStatement } := by
  unfold withStatement
  by_cases unnamed : statement = ""
  · rw [if_neg (not_not_intro unnamed), if_pos unnamed, Option.none_or]
  · rw [if_pos unnamed, if_neg unnamed]
    cases conn.prepared[statement]? <;> rfl

end ConnectionSession

section Memory

/-- What the connection keeps of its statements stays as it is. -/
structure KeepsStatements (s s' : ConnState) : Prop where
  prepared : s'.conn.prepared = s.conn.prepared
  slot : s'.conn.lastStatement = s.conn.lastStatement
  params : s'.conn.portalParams = s.conn.portalParams

instance : IsPreorder ConnState KeepsStatements where
  refl _ := ⟨rfl, rfl, rfl⟩
  trans _ _ _ first second := ⟨second.prepared.trans first.prepared, second.slot.trans first.slot,
    second.params.trans first.params⟩

theorem keepsStatements_writeAll : Moves KeepsStatements writeAll := by
  rintro ⟨input, outages, conn, db, trace⟩
  rcases outages with _ | ⟨_ | _, rest⟩ <;> exact ⟨rfl, rfl, rfl⟩

/-- What the connection keeps is what the messages say. -/
structure Remembers (history : List Message) (conn : ConnectionSession) : Prop where
  prepared : ∀ name, name ≠ "" → conn.prepared[name]? = parsedText history name
  slot : conn.lastStatement = slotFrom [] history
  params : conn.portalParams = givenParams history

theorem Remembers.kept {history : List Message} {s s' : ConnState}
    (remembers : Remembers history s.conn) (kept : KeepsStatements s s') :
    Remembers history s'.conn where
  prepared name named := by rw [kept.prepared, remembers.prepared name named]
  slot := kept.slot.trans remembers.slot
  params := kept.params.trans remembers.params

variable {history : List Message} {message : Message} {conn conn' : ConnectionSession}

theorem givenParams_concat (history : List Message) (message : Message) :
    givenParams (history ++ [message]) =
      ((bindingOf message).bind Binding.params).getD (givenParams history) := by
  unfold givenParams
  rw [List.filterMap_append]
  cases given : (bindingOf message).bind Binding.params with
  | none => simp [given]
  | some params => simp [given]

/-- A message of another kind changes nothing. -/
theorem Remembers.other (remembers : Remembers history conn)
    (notParse : Char.ofUInt8 message.1 ≠ 'P') (notBind : Char.ofUInt8 message.1 ≠ 'B') :
    Remembers (history ++ [message]) conn where
  prepared name named := by
    rw [parsedText_concat, textUnder_of_ne notParse, Option.none_or,
      remembers.prepared name named]
  slot := by
    rw [slotFrom_concat, putsText, bindingOf_of_ne notBind]
    simp only [textUnder_of_ne notParse, Option.none_or]
    exact remembers.slot
  params := by
    rw [givenParams_concat, bindingOf_of_ne notBind, Option.bind_none, Option.getD_none]
    exact remembers.params

/-- A `Parse` is remembered. -/
theorem Remembers.parse (remembers : Remembers history conn) (isParse : Char.ofUInt8 message.1 = 'P') :
    Remembers (history ++ [message]) (handleParse message.2 conn) := by
  have noBinding : bindingOf message = none := bindingOf_of_ne (by rw [isParse]; decide)
  have text : ∀ name, textUnder name message =
      if (readCstringBuf message.2).1 = name then
        some (readCstringBuf (readCstringBuf message.2).2).1 else none := by
    intro name
    unfold textUnder
    rw [isParse]
    rfl
  dsimp only [handleParse]
  by_cases unnamed : (readCstringBuf message.2).1 = ""
  · rw [if_pos unnamed]
    constructor
    · intro name named
      rw [parsedText_concat, text, if_neg (unnamed ▸ named.symm), Option.none_or]
      exact remembers.prepared name named
    · rw [slotFrom_concat, putsText, noBinding]
      simp only [text, if_pos unnamed, Option.some_or]
    · rw [givenParams_concat, noBinding, Option.bind_none, Option.getD_none]
      exact remembers.params
  · rw [if_neg unnamed]
    constructor
    · intro name named
      rw [parsedText_concat, text]
      dsimp only
      by_cases same : (readCstringBuf message.2).1 = name
      · rw [if_pos same, Option.some_or, ← same, Std.ExtTreeMap.getElem?_insert_self]
      · rw [if_neg same, Option.none_or, ← remembers.prepared name named,
          Std.ExtTreeMap.getElem?_insert, if_neg]
        rwa [Std.compare_eq_iff_eq]
    · rw [slotFrom_concat, putsText, noBinding]
      simp only [text, if_neg unnamed, Option.none_or]
      exact remembers.slot
    · rw [givenParams_concat, noBinding, Option.bind_none, Option.getD_none]
      exact remembers.params

/-- A `Bind` is remembered. -/
theorem Remembers.bind (remembers : Remembers history conn) (isBind : Char.ofUInt8 message.1 = 'B')
    (bound : handleBind message.2 conn = .ok conn') :
    Remembers (history ++ [message]) conn' := by
  have noText : ∀ name, textUnder name message = none :=
    textUnder_of_ne (by rw [isBind]; decide)
  have binding : bindingOf message = some {
      statement := (readCstringBuf (readCstringBuf message.2).2).1
      params := (boundParams (readCstringBuf (readCstringBuf message.2).2).2).toOption.join } := by
    unfold bindingOf
    rw [isBind]
    rfl
  rw [handleBind_eq] at bound
  cases params : boundParams (readCstringBuf (readCstringBuf message.2).2).2 with
  | error e =>
      rw [params] at bound
      cases bound
  | ok given =>
      rw [params] at bound binding
      generalize (readCstringBuf (readCstringBuf message.2).2).1 = statement at bound binding
      cases bound
      dsimp only
      rw [ConnectionSession.withStatement_eq]
      constructor
      · intro name named
        rw [parsedText_concat, noText, Option.none_or, ← remembers.prepared name named]
        simp only [ConnectionSession.prepared_withParams]
      · rw [slotFrom_concat, putsText, binding]
        simp only [ConnectionSession.prepared_withParams,
          ConnectionSession.lastStatement_withParams, remembers.slot, List.nil_append]
        by_cases unnamed : statement = ""
        · rw [if_pos unnamed, if_pos unnamed]
        · rw [if_neg unnamed, if_neg unnamed, remembers.prepared statement unnamed]
      · rw [givenParams_concat, binding]
        simp only [ConnectionSession.portalParams_withParams, remembers.params]
        rfl

variable [Runtime] {around : Surroundings} {s s' : ConnState}

theorem replies_keepsStatements : Replies around KeepsStatements where
  message _ _ _ _ := ⟨rfl, rfl, rfl⟩
  write := keepsStatements_writeAll
  flag _ _ := ⟨rfl, rfl, rfl⟩
  execute sql s := by
    unfold finalState executeSql
    dsimp only
    cases executeText (around.parseSql sql) { s.db with session := s.conn.session } with
    | ok result after => exact ⟨rfl, rfl, rfl⟩
    | error e after => cases e <;> exact ⟨rfl, rfl, rfl⟩

omit [Runtime] in
theorem keepsStatements_sendReady : Moves KeepsStatements sendReady :=
  moves_sendReady (fun _ _ => ⟨rfl, rfl, rfl⟩) keepsStatements_writeAll

/-- **The body of the loop remembers every message.** -/
theorem remembers_of_handleMessage (remembers : Remembers history s.conn)
    (handled : handleMessage around message.1 message.2 s = .ok true s') :
    Remembers (history ++ [message]) s'.conn := by
  have replies : Replies around KeepsStatements := replies_keepsStatements
  by_cases isParse : Char.ofUInt8 message.1 = 'P'
  · unfold handleMessage at handled
    rw [isParse] at handled
    obtain ⟨_, mid, kept, handled⟩ := bind_eq_ok.mp handled
    obtain ⟨-, rfl⟩ := pure_eq_ok.mp handled
    rw [modify_eq_ok.mp kept]
    exact remembers.parse isParse
  by_cases isBind : Char.ofUInt8 message.1 = 'B'
  · unfold handleMessage at handled
    rw [isBind] at handled
    obtain ⟨_, _, got, handled⟩ := bind_eq_ok.mp handled
    obtain ⟨rfl, rfl⟩ := get_eq_ok.mp got
    obtain ⟨conn, mid, bound, handled⟩ := bind_eq_ok.mp handled
    obtain ⟨_, mid', kept, handled⟩ := bind_eq_ok.mp handled
    obtain ⟨-, rfl⟩ := pure_eq_ok.mp handled
    rw [modify_eq_ok.mp kept]
    exact remembers.bind isBind (lift_eq_ok.mp bound).1
  · refine (remembers.other isParse isBind).kept ?_
    unfold handleMessage at handled
    generalize Char.ofUInt8 message.1 = tag at handled isParse isBind
    split at handled
    · dsimp only at handled
      split at handled
      · obtain ⟨-, rfl⟩ := pure_eq_ok.mp handled
        exact refl_of KeepsStatements s
      · obtain ⟨_, mid, ran, handled⟩ := bind_eq_ok.mp handled
        obtain ⟨_, answered, sent, handled⟩ := bind_eq_ok.mp handled
        obtain ⟨-, rfl⟩ := pure_eq_ok.mp handled
        exact trans_of KeepsStatements ((replies.runSql _).of_ok ran)
          (keepsStatements_sendReady.of_ok sent)
    · exact absurd rfl isParse
    · exact absurd rfl isBind
    · obtain ⟨_, mid, ran, handled⟩ := bind_eq_ok.mp handled
      obtain ⟨-, rfl⟩ := pure_eq_ok.mp handled
      exact replies.handleExecute.of_ok ran
    · obtain ⟨_, mid, kept, handled⟩ := bind_eq_ok.mp handled
      obtain ⟨_, answered, sent, handled⟩ := bind_eq_ok.mp handled
      obtain ⟨-, rfl⟩ := pure_eq_ok.mp handled
      exact trans_of KeepsStatements ((replies.setError false).of_ok kept)
        (keepsStatements_sendReady.of_ok sent)
    · exact nomatch (pure_eq_ok.mp handled).1
    · obtain ⟨-, rfl⟩ := pure_eq_ok.mp handled
      exact refl_of KeepsStatements s

/-- After any messages the connection remembers them. -/
theorem remembers_of_processed {start : ConnState} (new : start.conn = .new)
    (processed : Processed around start history s) : Remembers history s.conn := by
  induction processed with
  | start =>
      rw [new]
      exact ⟨fun _ _ => rfl, rfl, rfl⟩
  | @message history message s mid s' earlier read handled ih =>
      refine remembers_of_handleMessage (ih.kept ?_) handled
      exact Moves.of_ok (moves_readMessage (fun _ _ => ⟨rfl, rfl, rfl⟩)
        fun _ _ _ => ⟨rfl, rfl, rfl⟩) read

end Memory

section Executions

/-- The texts that have reached the engine. -/
def executions (s : ConnState) : List String :=
  s.trace.filterMap fun
    | .executed sql => some sql
    | _ => none

/-- No text reaches the engine. -/
def SameExecutions (s s' : ConnState) : Prop := executions s' = executions s

instance : IsPreorder ConnState SameExecutions where
  refl _ := rfl
  trans _ _ _ first second := Eq.trans second first

variable [Runtime] {around : Surroundings} {s s' : ConnState}

omit [Runtime] in
theorem sends_sameExecutions : Sends SameExecutions where
  message tag body _ := .write fun s => by simp [SameExecutions, executions]
  write := by
    rintro ⟨input, outages, conn, db, trace⟩
    rcases outages with _ | ⟨_ | _, rest⟩ <;> rfl
  flag _ _ := rfl

theorem executions_of_executeSql (sql : String) :
    executions (finalState (executeSql around sql) s) = executions s ++ [sql] := by
  unfold finalState executeSql
  dsimp only
  cases executeText (around.parseSql sql) { s.db with session := s.conn.session } with
  | ok result after => simp [executions]
  | error e after => cases e <;> simp [executions]

/-- A text runs once, unless its preview panics. -/
theorem executions_of_runSql (sql : String) :
    executions (finalState (runSql around sql) s) =
      executions s ++ if canPreview sql then [sql] else [] := by
  unfold runSql canPreview
  cases preview : summarizeSql sql with
  | error e =>
      have panics : lift (Except.error e : Except ServerFailure String) s = .error e s := rfl
      rw [finalState_bind_of_error panics]
      exact (List.append_nil _).symm
  | ok text =>
      have passes : lift (Except.ok text : Except ServerFailure String) s = .ok text s := rfl
      rw [finalState_bind_of_ok passes]
      have once : executions (finalState (executeSql around sql) s) = executions s ++ [sql] :=
        executions_of_executeSql sql
      cases ran : executeSql around sql s with
      | error e after =>
          rw [finalState_of_error ran] at once
          rw [finalState_bind_of_error ran]
          exact once
      | ok outcome after =>
          rw [finalState_of_ok ran] at once
          rw [finalState_bind_of_ok ran]
          exact (sends_sameExecutions.report outcome after).trans once

/-- **What Execute runs is what is in the slot.** -/
theorem executions_of_handleExecute :
    executions (finalState (handleExecute around) s) = executions s ++
      (((s.conn.lastStatement.filter (· ≠ "")).map fun text =>
        substituteParams text s.conn.portalParams).filter canPreview).toList := by
  change executions (finalState (if s.conn.lastStatement.getD "" = "" then pure ()
    else runSql around (substituteParams (s.conn.lastStatement.getD "") s.conn.portalParams)) s) = _
  cases slot : s.conn.lastStatement with
  | none => exact (List.append_nil _).symm
  | some text =>
      rw [Option.getD_some]
      by_cases empty : text = ""
      · rw [if_pos empty, Option.filter_some, if_neg (by simp [empty])]
        exact (List.append_nil _).symm
      · have kept : (some text).filter (· ≠ "") = some text := by
          rw [Option.filter_some, if_pos (decide_eq_true empty)]
        rw [if_neg empty, executions_of_runSql, kept, Option.map_some, Option.filter_some]
        cases canPreview (substituteParams text s.conn.portalParams) <;> rfl

variable {start : ConnState} {history : List Message}

/-- **Execute runs what was bound exactly when the slot holds it.** After any
messages of a connection, whether the text under the bound name is looked up at
the `Bind` or at the `Execute`. -/
theorem execute_runs_bound_iff (moment : Moment) (new : start.conn = .new)
    (processed : Processed around start history s) (payload : List UInt8) :
    executions (finalState (handleMessage around 'E'.toUInt8 payload) s) =
        executions s ++ (boundSql moment history).toList ↔
      HoldsBound moment history := by
  have same : finalState (handleMessage around 'E'.toUInt8 payload) s =
      finalState (handleExecute around) s := finalState_bind_pure _ _ s
  have remembers := remembers_of_processed new processed
  rw [same, executions_of_handleExecute, remembers.slot, remembers.params,
    List.append_cancel_left_eq]
  unfold HoldsBound
  change ((slotSql history).filter canPreview).toList = _ ↔ _
  cases boundSql moment history with
  | none =>
      cases slotSql history with
      | none => simp
      | some sql => cases preview : canPreview sql <;> simp [Option.filter_some, preview]
  | some bound =>
      cases slotSql history with
      | none => simp
      | some sql =>
          cases preview : canPreview sql with
          | false =>
              simp only [Option.filter_some, preview, Bool.false_eq_true, if_false,
                Option.toList_none, Option.toList_some, List.nil_eq, List.cons_ne_self, false_iff]
              rintro ⟨same, previews⟩
              rw [← Option.some.inj same, preview] at previews
              cases previews
          | true =>
              simp only [Option.filter_some, preview, if_true, Option.toList_some,
                List.cons.injEq, and_true, Option.some.injEq, iff_self_and]
              rintro rfl
              exact preview

end Executions

section Example

/-- A message with a tag and a payload, as bytes. -/
def frame (tag : Char) (payload : List UInt8) : List UInt8 :=
  tag.toUInt8 :: toBeBytes 4 (payload.length + 4) ++ payload

/-- The payload of a `Parse` message. -/
def parsePayload (name sql : String) : List UInt8 :=
  utf8Bytes name ++ 0 :: utf8Bytes sql ++ [0, 0, 0]

/-- The payload of a `Bind` message without parameters. -/
def bindPayload (statement : String) : List UInt8 :=
  0 :: utf8Bytes statement ++ [0, 0, 0, 0, 0, 0, 0]

/-- A client that binds the unnamed statement after a named one. -/
def mixesNames : ConnState :=
  { passwordClient with
    input := frame 'P' (parsePayload "" "SELECT 1") ++ frame 'P' (parsePayload "s" "SELECT 2") ++
      frame 'B' (bindPayload "s") ++ frame 'B' (bindPayload "") ++ frame 'E' [0, 0, 0, 0, 0] }

/-- What it sends before `Execute`. -/
def mixedHistory : List Message :=
  [('P'.toUInt8, parsePayload "" "SELECT 1"), ('P'.toUInt8, parsePayload "s" "SELECT 2"),
    ('B'.toUInt8, bindPayload "s"), ('B'.toUInt8, bindPayload "")]

/-- The unnamed statement is bound, and the named one runs. -/
theorem mixesNames_runs : ∃ s,
    @Processed Runtime.reference onePassword mixesNames mixedHistory s ∧
      boundSql .bind mixedHistory = some "SELECT 1" ∧
      boundSql .execute mixedHistory = some "SELECT 1" ∧
      executions s = [] ∧
      executions (finalState
        (@handleMessage Runtime.reference onePassword 'E'.toUInt8 [0, 0, 0, 0, 0]) s) =
          ["SELECT 2"] := by
  have checked : (@runMessages Runtime.reference onePassword mixesNames 4).any (fun reached =>
      decide (reached.1 = mixedHistory) && decide (executions reached.2 = []) &&
        decide (executions (finalState
          (@handleMessage Runtime.reference onePassword 'E'.toUInt8 [0, 0, 0, 0, 0])
            reached.2) = ["SELECT 2"])) = true := by decide +kernel
  obtain ⟨⟨history, s⟩, ran, holds⟩ := (Option.any_eq_true ..).mp checked
  simp only [Bool.and_eq_true, decide_eq_true_eq] at holds
  obtain ⟨⟨rfl, none⟩, runs⟩ := holds
  exact ⟨s, @processed_of_runMessages Runtime.reference _ _ _ _ 4 ran, by decide +kernel,
    by decide +kernel, none, runs⟩

/-- Whenever the text is looked up, it is not the one that runs. -/
theorem execute_runs_named_statement : ∃ s,
    @Processed Runtime.reference onePassword mixesNames mixedHistory s ∧
      ∀ moment, executions (finalState
        (@handleMessage Runtime.reference onePassword 'E'.toUInt8 [0, 0, 0, 0, 0]) s) ≠
          executions s ++ (boundSql moment mixedHistory).toList := by
  obtain ⟨s, processed, atBind, atExecute, before, runs⟩ := mixesNames_runs
  refine ⟨s, processed, fun moment => ?_⟩
  rw [runs, before]
  cases moment with
  | bind =>
      rw [atBind]
      decide
  | execute =>
      rw [atExecute]
      decide

/-- A client that binds the statement it has parsed last. -/
def bindsLast : ConnState :=
  { passwordClient with
    input := frame 'P' (parsePayload "s" "SELECT 2") ++ frame 'B' (bindPayload "s") ++
      frame 'E' [0, 0, 0, 0, 0] }

/-- What it sends before `Execute`. -/
def lastHistory : List Message :=
  [('P'.toUInt8, parsePayload "s" "SELECT 2"), ('B'.toUInt8, bindPayload "s")]

theorem bindsLast_processed : ∃ s,
    @Processed Runtime.reference onePassword bindsLast lastHistory s := by
  have checked : (@runMessages Runtime.reference onePassword bindsLast 2).any (fun reached =>
      decide (reached.1 = lastHistory)) = true := by decide +kernel
  obtain ⟨⟨history, s⟩, ran, same⟩ := (Option.any_eq_true ..).mp checked
  obtain rfl := of_decide_eq_true same
  exact ⟨s, @processed_of_runMessages Runtime.reference _ _ _ _ 2 ran⟩

/-- The slot does not hold what was bound to the one client, and holds what was bound
to the other. -/
theorem execute_runs_bound_iff_mixed : ¬HoldsBound .bind mixedHistory ∧
    ∃ s, @Processed Runtime.reference onePassword bindsLast lastHistory s ∧
      executions (finalState
        (@handleMessage Runtime.reference onePassword 'E'.toUInt8 [0, 0, 0, 0, 0]) s) =
          executions s ++ ["SELECT 2"] := by
  constructor
  · obtain ⟨s, processed, atBind, -, before, runs⟩ := mixesNames_runs
    intro holds
    have ran := (@execute_runs_bound_iff Runtime.reference _ _ _ _ .bind rfl processed
      [0, 0, 0, 0, 0]).mpr holds
    rw [runs, before, atBind] at ran
    exact absurd ran (by decide)
  · obtain ⟨s, processed⟩ := bindsLast_processed
    have atBind : boundSql .bind lastHistory = some "SELECT 2" := by decide +kernel
    have holds : HoldsBound .bind lastHistory := by
      rw [HoldsBound, atBind]
      decide +kernel
    have ran := (@execute_runs_bound_iff Runtime.reference _ _ _ _ .bind rfl processed
      [0, 0, 0, 0, 0]).mpr holds
    rw [atBind] at ran
    exact ⟨s, processed, ran⟩

end Example

end MoodengSQL
