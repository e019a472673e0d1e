import MoodengSQL.Server.Client
import MoodengSQL.Server.Binding
import MoodengSQL.Evaluation.Literals

/-!
# Rows on the wire

The rows of a result, as the server writes them and the command-line client reads them:
the messages are framed by a length, and so are the values inside of them. What is
written is read back, value by value and message by message.
-/

namespace MoodengSQL

open Foundation Effect ConnM

section Sent

variable {s s' : ConnState}

theorem trace_of_writeAll {u : Unit} (wrote : writeAll s = .ok u s') : s'.trace = s.trace := by
  unfold writeAll at wrote
  split at wrote
  · cases wrote
  · cases wrote
    rfl
  · cases wrote
    rfl

/-- A message that is sent is noted. -/
theorem trace_of_sendMessage {tag : Char} {body : List UInt8} {u : Unit}
    (sent : sendMessage tag body s = .ok u s') :
    s'.trace = s.trace ++ [.message tag.toUInt8 body] := by
  unfold sendMessage at sent
  obtain ⟨_, noted, noting, sent⟩ := bind_eq_ok.mp sent
  obtain ⟨_, first, wrote, sent⟩ := bind_eq_ok.mp sent
  obtain ⟨_, second, wrote', wrote''⟩ := bind_eq_ok.mp sent
  rw [trace_of_writeAll wrote'', trace_of_writeAll wrote', trace_of_writeAll wrote]
  rw [emit, modify_eq_ok] at noting
  rw [noting]

variable [Runtime]

/-- The body of the `RowDescription` message. -/
def rowDescription (columns : List String) : List UInt8 :=
  toBeBytes 2 columns.length ++ columns.flatMap encodeColumn

/-- The `DataRow` message of a row. -/
def rowMessage (row : Row) : ConnEvent :=
  .message 'D'.toUInt8 (toBeBytes 2 row.values.length ++ row.values.flatMap encodeValue)

theorem trace_of_sendRows {rows : List Row} {u : Unit} (sent : sendRows rows s = .ok u s') :
    s'.trace = s.trace ++ rows.map rowMessage := by
  induction rows generalizing s with
  | nil =>
      obtain ⟨-, rfl⟩ := pure_eq_ok.mp sent
      rw [List.map_nil, List.append_nil]
  | cons row rest ih =>
      obtain ⟨_, mid, first, later⟩ := bind_eq_ok.mp sent
      rw [ih later, trace_of_sendMessage first, List.map_cons, List.append_assoc]
      rfl

/-- The messages behind the row description of a result with rows, up to
`ReadyForQuery`. -/
def rowMessages (rows : List Row) (status : UInt8) : List ConnEvent :=
  rows.map rowMessage ++
    [.message 'C'.toUInt8 (utf8Bytes ("SELECT " ++ toString rows.length) ++ [0]),
      .message 'Z'.toUInt8 [status]]

/-- What is sent for a result with rows. -/
theorem trace_of_sendQueryResult {result : QueryResult} {u : Unit} (present : result.rows ≠ [])
    (sent : (do sendQueryResult result; sendReady) s = .ok u s') :
    ∃ status, s'.trace = s.trace ++ .message 'T'.toUInt8 (rowDescription result.columns) ::
      rowMessages result.rows status := by
  obtain ⟨_, shown, sent, ready⟩ := bind_eq_ok.mp sent
  unfold sendQueryResult at sent
  rw [if_neg present] at sent
  obtain ⟨_, described, first, sent⟩ := bind_eq_ok.mp sent
  obtain ⟨_, listed, rows, last⟩ := bind_eq_ok.mp sent
  have status : s'.trace = shown.trace ++ [.message 'Z'.toUInt8 [shown.conn.readyStatus]] :=
    trace_of_sendMessage ready
  refine ⟨shown.conn.readyStatus, ?_⟩
  rw [status, trace_of_sendMessage last, trace_of_sendRows rows, trace_of_sendMessage first]
  simp only [rowDescription, rowMessages, List.append_assoc, List.cons_append, List.nil_append]

end Sent

namespace Client

section Values

/-- A slice behind the bytes before it. -/
theorem slice_append (before bytes rest : List UInt8) :
    slice (before ++ (bytes ++ rest)) before.length (before.length + bytes.length) =
      .ok bytes := by
  have inside : before.length ≤ before.length + bytes.length ∧
      before.length + bytes.length ≤ (before ++ (bytes ++ rest)).length := by
    rw [List.length_append, List.length_append]
    omega
  unfold slice
  rw [if_pos inside, List.drop_left' rfl, Nat.add_sub_cancel_left, List.take_left' rfl]

/-- The number of columns is read as it was written, if it is positive as an `i16`. -/
theorem columnCount_toBeBytes {count : Nat} (small : count ≤ 32767) (rest : List UInt8) :
    columnCount (toBeBytes 2 count ++ rest) = count := by
  have size : (toBeBytes 2 count).length = 2 := toBeBytes_length 2 count
  have number : (Int16.ofNat count).toInt = count := Int16.toInt_ofNat_of_lt (by omega)
  unfold columnCount
  rw [List.take_left' size, fromBeBytes_toBeBytes, Nat.mod_eq_of_lt (by omega), number]
  omega

theorem asUsize_ofNat {length : Nat} (short : length < 2 ^ 31) :
    asUsize (Int32.ofNat length) = length := by
  rw [asUsize, Int32.toInt_ofNat_of_lt short]
  omega

/-- A length that was written is read, and is not the marker of a null. -/
theorem readLength {length : Nat} (short : length < 2 ^ 31) :
    Int32.ofNat (fromBeBytes (toBeBytes 4 length)) = Int32.ofNat length ∧
      Int32.ofNat length ≠ -1 := by
  have number : (Int32.ofNat length).toInt = length := Int32.toInt_ofNat_of_lt short
  constructor
  · rw [fromBeBytes_toBeBytes, Nat.mod_eq_of_lt (by omega)]
  · intro marker
    rw [marker, show (-1 : Int32).toInt = -1 from rfl] at number
    omega

variable [Runtime]

/-- What the client shows of a value. -/
def shownValue (value : Value) : String := if value.isNull then "NULL" else value.toDisplayString

theorem four_le_encodeValue (value : Value) : 4 ≤ (encodeValue value).length := by
  unfold encodeValue
  split
  · rw [toBeBytes_length]
  · rw [List.length_append, toBeBytes_length]
    omega

/-- One turn of the loop reads one value. -/
theorem readValues_succ (before rest : List UInt8) (value : Value) (count : Nat)
    (short : (encodeValue value).length < 2 ^ 31) :
    readValues (before ++ (encodeValue value ++ rest)) (count + 1) before.length =
      (readValues (before ++ (encodeValue value ++ rest)) count
        (before ++ encodeValue value).length).map (shownValue value :: ·) := by
  have long := four_le_encodeValue value
  have room : ¬ (before ++ (encodeValue value ++ rest)).length < before.length + 4 := by
    rw [List.length_append, List.length_append]
    omega
  rw [readValues, if_neg room, List.drop_left' rfl]
  unfold shownValue
  cases null : value.isNull with
  | true =>
      have marker : encodeValue value = toBeBytes 4 (2 ^ 32 - 1) := if_pos null
      have read : Int32.ofNat (fromBeBytes ((toBeBytes 4 (2 ^ 32 - 1) ++ rest).take 4)) = -1 := by
        rw [List.take_left' (toBeBytes_length 4 _)]
        decide
      rw [marker, read, List.length_append, toBeBytes_length]
      dsimp only
      rw [if_pos rfl, if_pos rfl]
      cases readValues (before ++ (toBeBytes 4 (2 ^ 32 - 1) ++ rest)) count (before.length + 4) <;>
        rfl
  | false =>
      have framed : encodeValue value = toBeBytes 4 (utf8Bytes value.toDisplayString).length ++
          utf8Bytes value.toDisplayString := if_neg (by rw [null]; exact Bool.false_ne_true)
      rw [framed, List.length_append, toBeBytes_length] at short
      have brief : (utf8Bytes value.toDisplayString).length < 2 ^ 31 := by omega
      obtain ⟨read, present⟩ := readLength brief
      have size : asUsize (Int32.ofNat (utf8Bytes value.toDisplayString).length) =
          (utf8Bytes value.toDisplayString).length := asUsize_ofNat brief
      have sliced := slice_append (before ++ toBeBytes 4 (utf8Bytes value.toDisplayString).length)
        (utf8Bytes value.toDisplayString) rest
      rw [List.length_append, toBeBytes_length] at sliced
      rw [framed, List.append_assoc, List.take_left' (toBeBytes_length 4 _), read]
      dsimp only
      rw [if_neg present, size, if_neg Bool.false_ne_true, ← List.append_assoc before, sliced,
        List.length_append, List.length_append, toBeBytes_length, ← Nat.add_assoc]
      dsimp only [Bind.bind, Except.bind]
      rw [fromUtf8Lossy_utf8Bytes]
      cases readValues _ count
        (before.length + 4 + (utf8Bytes value.toDisplayString).length) <;> rfl

/-- **The loop reads the values of a row.** -/
theorem readValues_flatMap (values : List Value) (before : List UInt8)
    (short : (values.flatMap encodeValue).length < 2 ^ 31) :
    readValues (before ++ values.flatMap encodeValue) values.length before.length =
      .ok (values.map shownValue) := by
  induction values generalizing before with
  | nil => rfl
  | cons value rest ih =>
      rw [List.flatMap_cons, List.length_append] at short
      have later := ih (before ++ encodeValue value) (by omega)
      rw [List.append_assoc] at later
      rw [List.flatMap_cons, List.length_cons, readValues_succ before _ value _ (by omega), later]
      rfl

/-- A row is shown with its values. -/
theorem showMessage_row (row : Row) (present : 1 ≤ row.values.length)
    (few : row.values.length ≤ 32767) (short : (row.values.flatMap encodeValue).length < 2 ^ 31) :
    showMessage 'D'.toUInt8 (toBeBytes 2 row.values.length ++ row.values.flatMap encodeValue) =
      .ok (some (.row (row.values.map shownValue))) := by
  have size : (toBeBytes 2 row.values.length).length = 2 := toBeBytes_length 2 _
  have read := readValues_flatMap row.values (toBeBytes 2 row.values.length) short
  have long : 2 < (toBeBytes 2 row.values.length ++ row.values.flatMap encodeValue).length := by
    obtain ⟨value, rest, parts⟩ := List.exists_cons_of_length_pos present
    have first := four_le_encodeValue value
    rw [List.length_append, size, parts, List.flatMap_cons, List.length_append]
    omega
  rw [size] at read
  change (if 2 < (toBeBytes 2 row.values.length ++ row.values.flatMap encodeValue).length then _
    else _) = _
  rw [if_pos long, columnCount_toBeBytes few, read]
  rfl

end Values

section Messages

theorem findIdx_zero {bytes rest : List UInt8} (zeroFree : 0 ∉ bytes) :
    (bytes ++ 0 :: rest).findIdx? (· = 0) = some bytes.length := by
  induction bytes with
  | nil => rfl
  | cons first others ih =>
      obtain ⟨differs, zeroFree⟩ := not_or.mp (mt List.mem_cons.mpr zeroFree)
      rw [List.cons_append, List.findIdx?_cons, ih zeroFree,
        if_neg (by simpa using Ne.symm differs)]
      rfl

/-- The tag of a command is shown. -/
theorem showMessage_tag {text : String} (zeroFree : '\x00' ∉ text.toList) :
    showMessage 'C'.toUInt8 (utf8Bytes text ++ [0]) = .ok (some (.tag text)) := by
  have tag : Char.ofUInt8 'C'.toUInt8 = 'C' := rfl
  unfold showMessage
  rw [tag]
  simp only [findIdx_zero (zero_not_mem_utf8Bytes zeroFree)]
  rw [List.take_left' rfl, fromUtf8Lossy_utf8Bytes]

/-- **A message is read as it was framed.** -/
theorem readMessage_wireBytes (tag : UInt8) {body : List UInt8} (short : body.length + 4 < 2 ^ 31)
    (rest : List UInt8) :
    readMessage ((ConnEvent.message tag body).wireBytes ++ rest) = .ok ((tag, body), rest) := by
  have header : (tag :: toBeBytes 4 (body.length + 4)).length = 5 := by
    rw [List.length_cons, toBeBytes_length]
  have taken (first more : List UInt8) (n : Nat) (size : first.length = n) :
      readExact n (first ++ more) = .ok (first, more) := by
    unfold readExact
    rw [if_pos (by rw [List.length_append]; omega), List.take_left' size, List.drop_left' size]
  obtain ⟨read, -⟩ := readLength short
  unfold readMessage ConnEvent.wireBytes
  rw [List.append_assoc, taken _ _ 5 header]
  dsimp only [Bind.bind, Except.bind]
  rw [List.drop_succ_cons, List.drop_zero, read, asUsize_ofNat short, if_neg (by omega),
    Nat.add_sub_cancel, taken body rest _ rfl]
  rfl

/-- One turn of the loop, for a message other than `ReadyForQuery`. -/
theorem messageLoop_message {tag : UInt8} {body rest : List UInt8} {shown : Option Shown}
    (notReady : tag ≠ 'Z'.toUInt8) (short : body.length + 4 < 2 ^ 31)
    (shows : showMessage tag body = .ok shown) (fuel : Nat) :
    messageLoop (fuel + 1) ((ConnEvent.message tag body).wireBytes ++ rest) =
      (messageLoop fuel rest).map fun later => (shown.toList ++ later.1, later.2) := by
  rw [messageLoop, readMessage_wireBytes tag short]
  dsimp only [Bind.bind, Except.bind]
  rw [if_neg notReady, shows]
  dsimp only
  cases messageLoop fuel rest <;> rfl

/-- The loop ends at `ReadyForQuery`. -/
theorem messageLoop_ready {body : List UInt8} (short : body.length + 4 < 2 ^ 31) (fuel : Nat)
    (rest : List UInt8) :
    messageLoop (fuel + 1) ((ConnEvent.message 'Z'.toUInt8 body).wireBytes ++ rest) =
      .ok ([], rest) := by
  rw [messageLoop, readMessage_wireBytes _ short]
  rfl

variable [Runtime]

/-- **The loop over the messages of a result.** -/
theorem messageLoop_rows {rows : List Row} {tag : String} {status : UInt8} {fuel : Nat}
    (enough : rows.length + 2 ≤ fuel)
    (counted : ∀ row ∈ rows, 1 ≤ row.values.length ∧ row.values.length ≤ 32767)
    (short : ∀ row ∈ rows, (row.values.flatMap encodeValue).length + 6 < 2 ^ 31)
    (zeroFree : '\x00' ∉ tag.toList) (brief : (utf8Bytes tag).length + 5 < 2 ^ 31) :
    messageLoop fuel (wireBytes (rows.map rowMessage ++
        [.message 'C'.toUInt8 (utf8Bytes tag ++ [0]), .message 'Z'.toUInt8 [status]])) =
      .ok (rows.map (fun row => .row (row.values.map shownValue)) ++ [.tag tag], []) := by
  induction rows generalizing fuel with
  | nil =>
      obtain ⟨fuel, rfl⟩ : ∃ more, fuel = more + 2 := ⟨fuel - 2, by simp at enough; omega⟩
      have tagged : (utf8Bytes tag ++ [0]).length + 4 < 2 ^ 31 := by
        rw [List.length_append, List.length_singleton]
        omega
      have small : [status].length + 4 < 2 ^ 31 := by
        rw [List.length_singleton]
        omega
      have ready := messageLoop_ready small fuel []
      rw [List.map_nil, List.nil_append, wireBytes, List.flatMap_cons, List.flatMap_cons,
        List.flatMap_nil, messageLoop_message (by decide) tagged (showMessage_tag zeroFree), ready]
      rfl
  | cons row rest ih =>
      obtain ⟨fuel, rfl⟩ : ∃ more, fuel = more + 1 := ⟨fuel - 1, by omega⟩
      obtain ⟨present, few⟩ := counted row List.mem_cons_self
      have size := short row List.mem_cons_self
      have framed : (toBeBytes 2 row.values.length ++
          row.values.flatMap encodeValue).length + 4 < 2 ^ 31 := by
        rw [List.length_append, toBeBytes_length]
        omega
      have shows := showMessage_row row present few (by omega)
      rw [List.length_cons] at enough
      have fewer : rest.length + 2 ≤ fuel := by omega
      have later := ih fewer
        (fun other member => counted other (List.mem_cons_of_mem _ member))
        (fun other member => short other (List.mem_cons_of_mem _ member))
      rw [wireBytes] at later ⊢
      rw [List.map_cons, List.cons_append, List.flatMap_cons, rowMessage,
        messageLoop_message (by decide) framed shows, later]
      rfl

end Messages

end Client

section Results

theorem length_le_wireBytes (events : List ConnEvent)
    (messages : ∀ event ∈ events, ∃ tag body, event = .message tag body) :
    events.length ≤ (wireBytes events).length := by
  induction events with
  | nil => exact Nat.le_refl _
  | cons event rest ih =>
      obtain ⟨tag, body, rfl⟩ := messages event List.mem_cons_self
      have later := ih fun other member => messages other (List.mem_cons_of_mem _ member)
      rw [wireBytes] at later ⊢
      rw [List.flatMap_cons, List.length_append, List.length_cons, ConnEvent.wireBytes,
        List.length_append, List.length_cons]
      omega

theorem zero_not_mem_selected (count : Nat) : '\x00' ∉ ("SELECT " ++ toString count).toList := by
  rw [String.toList_append, List.mem_append, not_or]
  refine ⟨by decide, fun member => ?_⟩
  have digit := List.all_eq_true.mp (isDecimal_toString count).2 _ member
  exact absurd digit (by decide)

variable [Runtime]

/-- **The client reads the rows of the server.** For a result with rows of one to 32767
values, in messages shorter than `2 ^ 31` bytes, the loop consumes what follows the row
description and shows the rows in order, each value with its display string or `NULL`. -/
theorem client_reads_rows {result : QueryResult} {s s' : ConnState}
    (sent : (do sendQueryResult result; sendReady) s = .ok () s') (present : result.rows ≠ [])
    (counted : ∀ row ∈ result.rows, 1 ≤ row.values.length ∧ row.values.length ≤ 32767) :
    ∃ description messages,
      s'.trace = s.trace ++ .message 'T'.toUInt8 description :: messages ∧
        ((∀ tag body, .message tag body ∈ messages → body.length + 4 < 2 ^ 31) →
          Client.readResponse (wireBytes messages) =
            .ok (result.rows.map (fun row => .row (row.values.map Client.shownValue)) ++
              [.tag ("SELECT " ++ toString result.rows.length)], [])) := by
  obtain ⟨status, sent⟩ := trace_of_sendQueryResult present sent
  refine ⟨_, _, sent, fun short => ?_⟩
  have messages (event : ConnEvent) (member : event ∈ rowMessages result.rows status) :
      ∃ tag body, event = .message tag body := by
    rcases List.mem_append.mp member with row | last
    · obtain ⟨_, -, rfl⟩ := List.mem_map.mp row
      exact ⟨_, _, rfl⟩
    · simp only [List.mem_cons, List.not_mem_nil, or_false] at last
      rcases last with rfl | rfl
      · exact ⟨_, _, rfl⟩
      · exact ⟨_, _, rfl⟩
  have enough := length_le_wireBytes _ messages
  apply Client.messageLoop_rows
  · rw [rowMessages, List.length_append, List.length_map] at enough
    exact enough
  · exact counted
  · intro row member
    have framed := short _ _ (List.mem_append_left _ (List.mem_map_of_mem member))
    rw [List.length_append, toBeBytes_length] at framed
    omega
  · exact zero_not_mem_selected _
  · have framed := short _ _ (List.mem_append_right _ List.mem_cons_self)
    rw [List.length_append, List.length_singleton] at framed
    omega

omit [Runtime] in
/-- Two rows, one of them a null. -/
theorem client_reads_rows_two :
    let _ := Runtime.reference
    Client.readResponse (wireBytes (rowMessages
        [Row.new [.null], Row.new [.text "x", .bool true]] 'I'.toUInt8)) =
      .ok ([.row ["NULL"], .row ["x", "true"], .tag "SELECT 2"], []) := by
  let _ := Runtime.reference
  let result : QueryResult :=
    { columns := ["a"], rows := [Row.new [.null], Row.new [.text "x", .bool true]],
      rowsAffected := 0, message := none, metaChanged := false }
  let run : ConnM Unit := do
    sendQueryResult result
    sendReady
  let s' := match run asksNothing with
    | .ok _ s' => s'
    | .error _ s' => s'
  have sent : run asksNothing = .ok () s' := rfl
  obtain ⟨description, messages, trace, reads⟩ := client_reads_rows sent (by decide) (by decide)
  have same : messages = rowMessages result.rows 'I'.toUInt8 :=
    (List.cons.inj trace).2.symm
  have tag : "SELECT " ++ toString result.rows.length = "SELECT 2" := by decide
  rw [same, tag] at reads
  intro _
  refine reads fun tag body member => ?_
  simp only [rowMessages, rowMessage, result, List.map_cons, List.map_nil, List.mem_cons,
    List.cons_append, List.nil_append, List.not_mem_nil, or_false, ConnEvent.message.injEq]
    at member
  rcases member with ⟨-, rfl⟩ | ⟨-, rfl⟩ | ⟨-, rfl⟩ | ⟨-, rfl⟩
  · decide
  · decide
  · decide
  · decide

end Results

end MoodengSQL
