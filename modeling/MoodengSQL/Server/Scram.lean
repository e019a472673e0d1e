import MoodengSQL.Core.Catalog
import MoodengSQL.Server.Text

/-!
# SCRAM-SHA-256

Credentials and the two steps of the server in the exchange. HMAC, SHA-256 and
base64 come from libraries and are parameters; so is the nonce the server draws.
-/

namespace MoodengSQL

/-- `[u8; 32]`. -/
abbrev Bytes32 := Vector UInt8 32

/-- The functions the server takes from cryptographic libraries. What is not
base64 is refused with a text. -/
structure Crypto where
  hmacSha256 : List UInt8 → List UInt8 → Bytes32
  sha256 : List UInt8 → Bytes32
  base64Encode : List UInt8 → String
  base64Decode : String → Except String (List UInt8)

/-- `SCRAM_SHA256`. -/
def SCRAM_SHA256 : String := "SCRAM-SHA-256"

/-- `DEFAULT_ITERATIONS`. -/
def DEFAULT_ITERATIONS : Nat := 4096

/-- `ScramCredentials`. -/
structure ScramCredentials where
  iterations : Nat
  salt : List UInt8
  storedKey : Bytes32
  serverKey : Bytes32
  deriving DecidableEq

/-- `ScramSession`. -/
structure ScramSession where
  creds : ScramCredentials
  clientFirstBare : String
  serverFirst : String
  clientNonce : String
  deriving DecidableEq

section Strings

/-- `str::strip_prefix`. -/
def stripPrefix (text start : String) : Option String :=
  if start.toList.isPrefixOf text.toList then
    some (String.ofList (text.toList.drop start.toList.length))
  else none

/-- `str::split_once`. -/
def splitOnce (text : String) (separator : Char) : Option (String × String) :=
  match text.toList.dropWhile (· ≠ separator) with
  | [] => none
  | _ :: rest => some (String.ofList (text.toList.takeWhile (· ≠ separator)), String.ofList rest)

/-- `str::split`, with a character. -/
def splitAll (text : String) (separator : Char) : List String :=
  (text.toList.splitOnP (· == separator)).map String.ofList

/-- The first part of `str::split`, with a text. -/
def beforeFirst (pattern : List Char) : List Char → List Char
  | [] => []
  | char :: rest =>
      if pattern.isPrefixOf (char :: rest) then [] else char :: beforeFirst pattern rest

/-- `u32::from_str`. -/
def parseU32 (text : String) : Except ServerFailure Nat :=
  let digits := match text.toList with
    | '+' :: digit :: rest => digit :: rest
    | chars => chars
  if digits = [] then .error (.error "cannot parse integer from empty string")
  else if digits.all Char.isDigit then
    let n := digits.foldl (fun acc digit => acc * 10 + (digit.toNat - '0'.toNat)) 0
    if n < 2 ^ 32 then .ok n else .error (.error "number too large to fit in target type")
  else .error (.error "invalid digit found in string")

/-- `xor_bytes`. -/
def xorBytes (a b : List UInt8) : List UInt8 := a.zipWith (· ^^^ ·) b

/-- `strip_gs2_header`. -/
def stripGs2Header (clientFirst : String) : Except ServerFailure String :=
  match stripPrefix clientFirst "n,," with
  | some rest => .ok rest
  | none => match stripPrefix clientFirst "y,," with
    | some rest => .ok rest
    | none => .error (.error "unsupported SCRAM gs2 header")

/-- The loop of `parse_attrs`. -/
def parseAttrParts : List String → Map String String → Except ServerFailure (Map String String)
  | [], out => .ok out
  | part :: rest, out => match splitOnce part '=' with
    | some (key, value) => parseAttrParts rest (out.insert key value)
    | none => .error (.error ("invalid SCRAM attribute: " ++ part))

/-- `parse_attrs`. -/
def parseAttrs (input : String) : Except ServerFailure (Map String String) :=
  parseAttrParts (splitAll input ',') ∅

/-- `ok_or_else`. -/
def okOr {α : Type} (value : Option α) (message : String) : Except ServerFailure α :=
  match value with
  | some a => .ok a
  | none => .error (.error message)

end Strings

variable (crypto : Crypto)

/-- The rounds of `hi` after the first. -/
def hiRounds (password : List UInt8) : Nat → Bytes32 → Bytes32 → Bytes32
  | 0, _, result => result
  | rounds + 1, ui, result =>
      let ui := crypto.hmacSha256 ui.toList password
      hiRounds password rounds ui (result.zipWith (· ^^^ ·) ui)

/-- `hi`. -/
def hi (password : String) (salt : List UInt8) (iterations : Nat) : Bytes32 :=
  let ui := crypto.hmacSha256 salt (utf8Bytes password)
  hiRounds crypto (utf8Bytes password) (iterations - 1) ui ui

/-- `STANDARD.decode`. -/
def decodeBase64 (text : String) : Except ServerFailure (List UInt8) :=
  (crypto.base64Decode text).mapError .error

/-- `decode_32`. -/
def decode32 (value : String) : Except ServerFailure Bytes32 := do
  let bytes ← decodeBase64 crypto value
  if size : bytes.length = 32 then .ok ⟨bytes.toArray, size⟩
  else .error (.error "expected 32-byte SCRAM key")

namespace ScramCredentials

/-- `from_password_with_salt`. -/
def fromPasswordWithSalt (password : String) (salt : List UInt8) (iterations : Nat) :
    ScramCredentials :=
  let saltedPassword := hi crypto password salt iterations
  let clientKey := crypto.hmacSha256 saltedPassword.toList (utf8Bytes "Client Key")
  { iterations, salt
    storedKey := crypto.sha256 clientKey.toList
    serverKey := crypto.hmacSha256 saltedPassword.toList (utf8Bytes "Server Key") }

/-- `parse`. -/
def parse (raw : String) : Except ServerFailure ScramCredentials := do
  let rest ← okOr (stripPrefix raw "SCRAM-SHA-256$") "invalid SCRAM credential prefix"
  let (params, keys) ← okOr (splitOnce rest '$') "invalid SCRAM credential format"
  let (iterations, saltB64) ← okOr (splitOnce params ':') "invalid SCRAM params"
  let (storedB64, serverB64) ← okOr (splitOnce keys ':') "invalid SCRAM keys"
  let iterations ← parseU32 iterations
  let salt ← decodeBase64 crypto saltB64
  let storedKey ← decode32 crypto storedB64
  let serverKey ← decode32 crypto serverB64
  .ok { iterations, salt, storedKey, serverKey }

end ScramCredentials

namespace ScramSession

/-- `start`, with the nonce bytes it draws. -/
def start (creds : ScramCredentials) (nonce : List UInt8) (clientFirst : String) :
    Except ServerFailure (ScramSession × String) := do
  let clientFirstBare ← stripGs2Header clientFirst
  let attrs ← parseAttrs clientFirstBare
  let clientNonce ← okOr attrs["r"]? "SCRAM client-first missing nonce"
  if clientNonce = "" then .error (.error "SCRAM client nonce must not be empty")
  let combinedNonce := clientNonce ++ crypto.base64Encode nonce
  let serverFirst := "r=" ++ combinedNonce ++ ",s=" ++ crypto.base64Encode creds.salt ++ ",i=" ++
    toString creds.iterations
  .ok ({ creds, clientFirstBare, serverFirst, clientNonce }, serverFirst)

/-- `finish`. -/
def finish (session : ScramSession) (clientFinal : String) : Except ServerFailure String := do
  let attrs ← parseAttrs clientFinal
  let channelBinding ← okOr attrs["c"]? "SCRAM client-final missing channel binding"
  if channelBinding ≠ "biws" ∧ channelBinding ≠ "eSws" then
    .error (.error ("unsupported SCRAM channel binding: " ++ channelBinding))
  let combinedNonce ← okOr attrs["r"]? "SCRAM client-final missing nonce"
  if !session.clientNonce.toList.isPrefixOf combinedNonce.toList then
    .error (.error "SCRAM nonce mismatch")
  let proofB64 ← okOr attrs["p"]? "SCRAM client-final missing proof"
  let clientProof ← decodeBase64 crypto proofB64
  let withoutProof := String.ofList (beforeFirst ",p=".toList clientFinal.toList)
  let authMessage := session.clientFirstBare ++ "," ++ session.serverFirst ++ "," ++ withoutProof
  let clientSignature := crypto.hmacSha256 session.creds.storedKey.toList (utf8Bytes authMessage)
  let clientKey := xorBytes clientProof clientSignature.toList
  if crypto.sha256 clientKey ≠ session.creds.storedKey then
    .error (.error "SCRAM proof verification failed")
  let serverSignature := crypto.hmacSha256 session.creds.serverKey.toList (utf8Bytes authMessage)
  .ok ("v=" ++ crypto.base64Encode serverSignature.toList)

end ScramSession

end MoodengSQL
