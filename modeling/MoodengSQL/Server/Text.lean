import MoodengSQL.Core.Types

/-!
# Text in messages

Strings as the server reads them from bytes and puts them together: UTF-8 with
replacement of what is malformed, texts that end in a zero byte, the preview of
a statement for the query log, and the substitution of parameters.
-/

namespace MoodengSQL

/-- How a task of the server ends other than by returning `Ok`. -/
inductive ServerFailure where
  | error (message : String)
  | panic (reason : String)
  deriving DecidableEq, Repr

section Utf8

/-- `str::as_bytes`. -/
def utf8Bytes (text : String) : List UInt8 := text.toList.flatMap String.utf8EncodeChar

/-- The ranges of the bytes that have to follow the first byte of a character. -/
def utf8Tail (first : UInt8) : Option (List (UInt8 × UInt8)) :=
  if first < 0x80 then some []
  else if 0xC2 ≤ first ∧ first ≤ 0xDF then some [(0x80, 0xBF)]
  else if first = 0xE0 then some [(0xA0, 0xBF), (0x80, 0xBF)]
  else if first = 0xED then some [(0x80, 0x9F), (0x80, 0xBF)]
  else if 0xE1 ≤ first ∧ first ≤ 0xEF then some [(0x80, 0xBF), (0x80, 0xBF)]
  else if first = 0xF0 then some [(0x90, 0xBF), (0x80, 0xBF), (0x80, 0xBF)]
  else if 0xF1 ≤ first ∧ first ≤ 0xF3 then some [(0x80, 0xBF), (0x80, 0xBF), (0x80, 0xBF)]
  else if first = 0xF4 then some [(0x80, 0x8F), (0x80, 0xBF), (0x80, 0xBF)]
  else none

/-- Read the following bytes of a character. A byte out of range ends it and is
left for what comes next. -/
def utf8Continue : List (UInt8 × UInt8) → Nat → List UInt8 → Option Nat × List UInt8
  | [], code, bytes => (some code, bytes)
  | _ :: _, _, [] => (none, [])
  | (low, high) :: ranges, code, byte :: bytes =>
      if low ≤ byte ∧ byte ≤ high then
        utf8Continue ranges (code * 64 + (byte.toNat - 0x80)) bytes
      else (none, byte :: bytes)

/-- The bits of the first byte of a character with that many bytes to follow. -/
def utf8Lead (first : UInt8) : Nat → Nat
  | 0 => first.toNat
  | following => first.toNat % 2 ^ (6 - following)

/-- The characters of bytes, with nothing for a malformed part. A character takes
at least one byte. -/
def decodeUtf8 : Nat → List UInt8 → List (Option Char)
  | 0, _ | _, [] => []
  | fuel + 1, first :: bytes =>
      match utf8Tail first with
      | none => none :: decodeUtf8 fuel bytes
      | some ranges =>
          match utf8Continue ranges (utf8Lead first ranges.length) bytes with
          | (code, bytes) => code.map Char.ofNat :: decodeUtf8 fuel bytes

/-- `String::from_utf8_lossy`. -/
def fromUtf8Lossy (bytes : List UInt8) : String :=
  String.ofList ((decodeUtf8 bytes.length bytes).map fun char => char.getD '\uFFFD')

/-- `String::from_utf8`. -/
def fromUtf8 (bytes : List UInt8) : Option String :=
  ((decodeUtf8 bytes.length bytes).mapM id).map String.ofList

/-- `read_cstring_buf`: the text up to the next zero byte, and what follows it. -/
def readCstringBuf (cur : List UInt8) : String × List UInt8 :=
  match cur.dropWhile (· ≠ 0) with
  | [] => ("", cur)
  | _ :: rest => (fromUtf8Lossy (cur.takeWhile (· ≠ 0)), rest)

/-- `read_cstring`. -/
def readCstring (payload : List UInt8) : String := (readCstringBuf payload).1

example : fromUtf8Lossy [0x61, 0xE2, 0x82, 0xAC, 0xE2, 0x82, 0x62, 0xFF] = "a€\uFFFDb\uFFFD" := by
  decide +kernel

end Utf8

section Words

/-- `char::is_whitespace`. -/
def isWhitespace (char : Char) : Bool :=
  (0x9 ≤ char.toNat && char.toNat ≤ 0xD) || (0x2000 ≤ char.toNat && char.toNat ≤ 0x200A) ||
    [0x20, 0x85, 0xA0, 0x1680, 0x2028, 0x2029, 0x202F, 0x205F, 0x3000].contains char.toNat

/-- `str::split_whitespace`. -/
def splitWhitespace (text : List Char) : List (List Char) :=
  (text.splitOnP isWhitespace).filter (· ≠ [])

/-- `&text[..n]`: a cut inside a character, or behind the end, panics. -/
def sliceTo : Nat → List Char → Except ServerFailure (List Char)
  | 0, _ => .ok []
  | _ + 1, [] => .error (.panic "byte index out of bounds")
  | n + 1, char :: rest =>
      if char.utf8Size ≤ n + 1 then (sliceTo (n + 1 - char.utf8Size) rest).map (char :: ·)
      else .error (.panic "byte index is not a char boundary")

/-- `summarize_sql`. -/
def summarizeSql (sql : String) : Except ServerFailure String :=
  let oneLine := List.intercalate [' '] (splitWhitespace sql.toList)
  if (utf8Bytes (String.ofList oneLine)).length ≤ 200 then .ok (String.ofList oneLine)
  else (sliceTo 200 oneLine).map fun cut => String.ofList cut ++ "…"

end Words

section Substitution

/-- `str::replace`, with the characters of an occurrence that are still to be
passed over. -/
def replaceFrom (pattern replacement : List Char) : Nat → List Char → List Char
  | _, [] => []
  | skip + 1, _ :: rest => replaceFrom pattern replacement skip rest
  | 0, char :: rest =>
      if pattern.isPrefixOf (char :: rest) then
        replacement ++ replaceFrom pattern replacement (pattern.length - 1) rest
      else char :: replaceFrom pattern replacement 0 rest

/-- The text `substitute_params` puts in the place of a parameter. -/
def paramText : Option String → String
  | none => "NULL"
  | some text =>
      if eqIgnoreAsciiCase text "null" then "NULL"
      else if text.toList.head?.any Char.isDigit then text
      else "'" ++ text ++ "'"

/-- `substitute_params`: the last parameter first. -/
def substituteParams (sql : String) (params : List (Option String)) : String :=
  String.ofList <| params.zipIdx.reverse.foldl
    (fun result entry =>
      replaceFrom ("$" ++ toString (entry.2 + 1)).toList (paramText entry.1).toList 0 result)
    sql.toList

example : substituteParams "SELECT $1, $2" [some "5", some "a"] = "SELECT 5, 'a'" := by
  decide +kernel

end Substitution

/-- The `Display` text of an error. -/
def MoodengError.display : MoodengError → String
  | .parse message => "SQL parse error: " ++ message
  | .execution message => "execution error: " ++ message
  | .tableNotFound table => "table '" ++ table ++ "' does not exist"
  | .columnNotFound column => "column '" ++ column ++ "' does not exist"
  | .typeMismatch expected actual => "type mismatch: expected " ++ expected ++ ", got " ++ actual
  | .duplicateKey message => "duplicate key: " ++ message
  | .versionConflict table rowId =>
      "row version conflict on " ++ table ++ " id " ++ toString rowId
  | .indexExists index => "index '" ++ index ++ "' already exists"
  | .storage message => "storage error: " ++ message

end MoodengSQL
