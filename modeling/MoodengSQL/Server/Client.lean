import MoodengSQL.Server.Protocol

/-!
# The command-line client

How `moodeng` reads what the server sends: the loop over messages in `execute_sql`, and
what it shows of each. The client is a program of its own, with its own idea of every
message. Its slices leave the payload with a panic, as those of the server do.
-/

namespace MoodengSQL

/-- What `execute_sql` shows of a message: an error, the names of the columns, the
values of a row, or the tag of a command. -/
inductive Shown where
  | error (text : String)
  | columns (names : List String)
  | row (values : List String)
  | tag (text : String)
  deriving DecidableEq

/-- What is added to the output. -/
def Shown.text : Shown → String
  | .error text => "ERROR: " ++ text ++ "\n"
  | .columns names =>
      let joined := String.intercalate " | " names
      joined ++ "\n" ++ String.ofList (List.replicate (utf8Bytes joined).length '-') ++ "\n"
  | .row values => String.intercalate " | " values ++ "\n"
  | .tag text => text ++ "\n"

namespace Client

/-- `payload[start..stop]`. -/
def slice (payload : List UInt8) (start stop : Nat) : Except ServerFailure (List UInt8) :=
  if start ≤ stop ∧ stop ≤ payload.length then .ok ((payload.drop start).take (stop - start))
  else .error (.panic "slice index out of range")

/-- `i16::from_be_bytes([payload[0], payload[1]]) as usize`. -/
def columnCount (payload : List UInt8) : Nat :=
  ((Int16.ofNat (fromBeBytes (payload.take 2))).toInt % 2 ^ 64).toNat

/-- The loop of the `'T'` branch from a position on. A name ends at the next zero byte;
behind it the client takes eighteen bytes for the fields of the column. -/
def readColumns (payload : List UInt8) : Nat → Nat → Except ServerFailure (List String)
  | 0, _ => .ok []
  | count + 1, pos => do
      let rest ← slice payload pos payload.length
      match rest.findIdx? (· = 0) with
      | some stop =>
          return fromUtf8Lossy (rest.take stop) :: (← readColumns payload count (pos + stop + 1 + 18))
      | none => readColumns payload count pos

/-- The loop of the `'D'` branch from a position on. Behind a negative length other than
−1 the slice ends before it begins, or wraps; it panics either way. -/
def readValues (payload : List UInt8) : Nat → Nat → Except ServerFailure (List String)
  | 0, _ => .ok []
  | count + 1, pos =>
      if payload.length < pos + 4 then .ok []
      else
        let vlen := Int32.ofNat (fromBeBytes ((payload.drop pos).take 4))
        if vlen = -1 then return "NULL" :: (← readValues payload count (pos + 4))
        else do
          let bytes ← slice payload (pos + 4) (pos + 4 + asUsize vlen)
          return fromUtf8Lossy bytes :: (← readValues payload count (pos + 4 + asUsize vlen))

/-- The `match` on the type of a message, other than `'Z'`. -/
def showMessage (msgType : UInt8) (payload : List UInt8) :
    Except ServerFailure (Option Shown) :=
  match Char.ofUInt8 msgType with
  | 'E' =>
      match payload.findIdx? (· = 0) with
      | some pos => do return some (.error (fromUtf8Lossy (← slice payload 1 pos)))
      | none => .ok (some (.error ""))
  | 'T' =>
      if 2 < payload.length then do
        return some (.columns (← readColumns payload (columnCount payload) 2))
      else .ok none
  | 'D' =>
      if 2 < payload.length then do
        return some (.row (← readValues payload (columnCount payload) 2))
      else .ok none
  | 'C' =>
      match payload.findIdx? (· = 0) with
      | some pos => .ok (some (.tag (fromUtf8Lossy (payload.take pos))))
      | none => .ok none
  | _ => .ok none

/-- `read_exact`. -/
def readExact (n : Nat) (input : List UInt8) : Except ServerFailure (List UInt8 × List UInt8) :=
  if n ≤ input.length then .ok (input.take n, input.drop n)
  else .error (.error "failed to fill whole buffer")

/-- A message: its type and its payload, whose vector panics at a negative length. -/
def readMessage (input : List UInt8) :
    Except ServerFailure ((UInt8 × List UInt8) × List UInt8) := do
  let (header, input) ← readExact 5 input
  let len := asUsize (Int32.ofNat (fromBeBytes (header.drop 1)))
  if 2 ^ 63 ≤ len - 4 then .error (.panic "capacity overflow")
  else
    let (payload, input) ← readExact (len - 4) input
    return ((header.headD 0, payload), input)

/-- The loop of `execute_sql` up to `ReadyForQuery`, with what is left of the stream. A
message has five bytes at least, so the loop ends within the length of the stream. -/
def messageLoop : Nat → List UInt8 → Except ServerFailure (List Shown × List UInt8)
  | 0, _ => .error (.error "failed to fill whole buffer")
  | fuel + 1, input => do
      let ((msgType, payload), input) ← readMessage input
      if msgType = 'Z'.toUInt8 then return ([], input)
      else
        let shown ← showMessage msgType payload
        let (later, input) ← messageLoop fuel input
        return (shown.toList ++ later, input)

/-- What `execute_sql` shows of a stream, and what it leaves of it. -/
def readResponse (input : List UInt8) : Except ServerFailure (List Shown × List UInt8) :=
  messageLoop input.length input

/-- The output of `execute_sql`. -/
def output (input : List UInt8) : Except ServerFailure String := do
  let (shown, _) ← readResponse input
  return String.join (shown.map Shown.text)

end Client

/-- The bytes that `send_message` and `write_u8` write. -/
def ConnEvent.wireBytes : ConnEvent → List UInt8
  | .message tag body => tag :: toBeBytes 4 (body.length + 4) ++ body
  | .byte sent => [sent]
  | _ => []

/-- The bytes of events, one after the other. -/
def wireBytes (events : List ConnEvent) : List UInt8 := events.flatMap ConnEvent.wireBytes

end MoodengSQL
