import MoodengSQL.Evaluation.Literals
import MoodengSQL.Foundation.Base64
import MoodengSQL.Server.Scram

/-!
# The SCRAM exchange

Credentials written and read back, and a client that knows the password. The texts of the
exchange are cut at commas, equals signs, colons and dollars, of which nonces and base64
may have some; both sides still make the same authentication message of them.
-/

namespace MoodengSQL

open Std

section Writing

variable (crypto : Crypto)

/-- `to_secret_string`. -/
def ScramCredentials.toSecretString (creds : ScramCredentials) : String :=
  "SCRAM-SHA-256$" ++ (toString creds.iterations ++ ":" ++ crypto.base64Encode creds.salt ++ "$" ++
    (crypto.base64Encode creds.storedKey.toList ++ ":" ++
      crypto.base64Encode creds.serverKey.toList))

/-- The message that both sides sign. -/
def authMessage (clientFirstBare serverFirst withoutProof : String) : String :=
  clientFirstBare ++ "," ++ serverFirst ++ "," ++ withoutProof

/-- `build_client_final`, the client of the repository's tests. Where it unwraps, an error
stands for the panic. -/
def buildClientFinal (password clientFirst serverFirst : String) :
    Except ServerFailure String := do
  let bare ← stripGs2Header clientFirst
  let serverAttrs ← parseAttrs serverFirst
  let salt ← decodeBase64 crypto (← okOr serverAttrs["s"]? "no salt")
  let iterations ← parseU32 (← okOr serverAttrs["i"]? "no iterations")
  let combinedNonce ← okOr serverAttrs["r"]? "no nonce"
  let saltedPassword := hi crypto password salt iterations
  let clientKey := crypto.hmacSha256 saltedPassword.toList (utf8Bytes "Client Key")
  let storedKey := crypto.sha256 clientKey.toList
  let withoutProof := "c=biws,r=" ++ combinedNonce
  let clientSignature :=
    crypto.hmacSha256 storedKey.toList (utf8Bytes (authMessage bare serverFirst withoutProof))
  let proof := xorBytes clientKey.toList clientSignature.toList
  return withoutProof ++ ",p=" ++ crypto.base64Encode proof

/-- What is relied on of base64: encodings are decoded back, and have no comma, colon or
dollar. -/
structure Crypto.Base64 (crypto : Crypto) : Prop where
  decodes : ∀ bytes, crypto.base64Decode (crypto.base64Encode bytes) = .ok bytes
  alphabet : ∀ bytes, ∀ separator ∈ [',', ':', '$'],
    separator ∉ (crypto.base64Encode bytes).toList

end Writing

section Texts

theorem stripPrefix_append (start rest : String) : stripPrefix (start ++ rest) start = some rest := by
  have begins : start.toList.isPrefixOf (start ++ rest).toList = true := by
    rw [String.toList_append, List.isPrefixOf_iff_prefix]
    exact List.prefix_append _ _
  unfold stripPrefix
  rw [if_pos begins, String.toList_append, List.drop_left' rfl, String.ofList_toList]

/-- A text is cut at the first separator. -/
theorem splitOnce_append {separator : Char} {key : String} (free : separator ∉ key.toList)
    (value : String) :
    splitOnce (key ++ String.singleton separator ++ value) separator = some (key, value) := by
  have before (char : Char) (member : char ∈ key.toList) :
      decide (char ≠ separator) = true :=
    decide_eq_true fun same => free (same ▸ member)
  have parts : (key ++ String.singleton separator ++ value).toList =
      key.toList ++ separator :: value.toList := by
    rw [String.toList_append, String.toList_append, String.toList_singleton, List.append_assoc]
    rfl
  unfold splitOnce
  rw [parts, List.dropWhile_append_of_pos before, List.takeWhile_append_of_pos before]
  simp

theorem splitAll_append {separator : Char} {part : String} (free : separator ∉ part.toList)
    (rest : String) :
    splitAll (part ++ String.singleton separator ++ rest) separator =
      part :: splitAll rest separator := by
  have before (char : Char) (member : char ∈ part.toList) : (char == separator) = false :=
    beq_false_of_ne fun same => free (same ▸ member)
  have parts : (part ++ String.singleton separator ++ rest).toList =
      part.toList ++ separator :: rest.toList := by
    rw [String.toList_append, String.toList_append, String.toList_singleton, List.append_assoc]
    rfl
  unfold splitAll
  rw [parts, List.splitOnP_append_cons_of_forall_mem before _ BEq.rfl, List.map_cons,
    String.ofList_toList]

theorem splitAll_of_free {separator : Char} {part : String} (free : separator ∉ part.toList) :
    splitAll part separator = [part] := by
  have before (char : Char) (member : char ∈ part.toList) : (char == separator) = false :=
    beq_false_of_ne fun same => free (same ▸ member)
  unfold splitAll
  rw [List.splitOnP_eq_singleton before, List.map_singleton, String.ofList_toList]

/-- An attribute of a SCRAM message. -/
def attrText (attr : String × String) : String := attr.1 ++ "=" ++ attr.2

/-- The attributes of a SCRAM message. -/
def attrTexts : List (String × String) → String
  | [] => ""
  | [attr] => attrText attr
  | attr :: rest => attrText attr ++ "," ++ attrTexts rest

/-- The attribute has no separators but the one between its key and its value. -/
structure CleanAttr (attr : String × String) : Prop where
  key : '=' ∉ attr.1.toList
  keyComma : ',' ∉ attr.1.toList
  value : ',' ∉ attr.2.toList

theorem cleanAttr {key value : String} (keyFree : '=' ∉ key.toList) (comma : ',' ∉ key.toList)
    (free : ',' ∉ value.toList) : CleanAttr (key, value) := ⟨keyFree, comma, free⟩

theorem CleanAttr.comma {attr : String × String} (clean : CleanAttr attr) :
    ',' ∉ (attrText attr).toList := by
  rw [attrText, String.toList_append, String.toList_append, List.mem_append, List.mem_append]
  rintro ((inKey | equals) | inValue)
  · exact clean.keyComma inKey
  · exact absurd equals (by decide)
  · exact clean.value inValue

/-- **Attributes are read as they were written.** -/
theorem parseAttrs_attrTexts (attrs : List (String × String)) (present : attrs ≠ [])
    (clean : ∀ attr ∈ attrs, CleanAttr attr) :
    parseAttrs (attrTexts attrs) =
      .ok (attrs.foldl (fun out attr => out.insert attr.1 attr.2) ∅) := by
  have turn (attr : String × String) (rest : List String) (out : Map String String)
      (cleanAttr : CleanAttr attr) : parseAttrParts (attrText attr :: rest) out =
        parseAttrParts rest (out.insert attr.1 attr.2) := by
    have cut : splitOnce (attrText attr) '=' = some (attr.1, attr.2) :=
      splitOnce_append cleanAttr.key attr.2
    rw [parseAttrParts, cut]
  unfold parseAttrs
  generalize (∅ : Map String String) = out
  induction attrs generalizing out with
  | nil => exact absurd rfl present
  | cons attr rest ih =>
      have first := clean attr List.mem_cons_self
      have later := fun other member => clean other (List.mem_cons_of_mem attr member)
      cases rest with
      | nil =>
          rw [attrTexts, splitAll_of_free first.comma, turn attr [] out first]
          rfl
      | cons next more =>
          have cut : splitAll (attrTexts (attr :: next :: more)) ',' =
              attrText attr :: splitAll (attrTexts (next :: more)) ',' :=
            splitAll_append first.comma _
          rw [cut, turn attr _ out first, ih (List.cons_ne_nil _ _) later]
          rfl

/-- A number is read back from its digits. -/
theorem parseU32_toString {n : Nat} (small : n < 2 ^ 32) : parseU32 (toString n) = .ok n := by
  obtain ⟨present, digits⟩ := isDecimal_toString n
  have value : (toString n).toList.foldl
      (fun acc digit => acc * 10 + (digit.toNat - '0'.toNat)) 0 = n := digitsValue_toString n
  unfold parseU32
  split
  · rename_i digit rest same
    have plus := List.all_eq_true.mp digits '+' (same ▸ List.mem_cons_self)
    exact absurd plus (by decide)
  · rw [if_neg present, if_pos digits, value]
    exact if_pos small

end Texts

section Credentials

variable {crypto : Crypto}

theorem free_of_base64 (base64 : crypto.Base64) (bytes : List UInt8) :
    ',' ∉ (crypto.base64Encode bytes).toList ∧ ':' ∉ (crypto.base64Encode bytes).toList ∧
      '$' ∉ (crypto.base64Encode bytes).toList :=
  ⟨base64.alphabet bytes _ (by decide), base64.alphabet bytes _ (by decide),
    base64.alphabet bytes _ (by decide)⟩

/-- The digits of a number have no separators. -/
theorem not_mem_toString {n : Nat} {separator : Char} (noDigit : separator.isDigit = false) :
    separator ∉ (toString n).toList := by
  intro member
  have digit := List.all_eq_true.mp (isDecimal_toString n).2 separator member
  rw [noDigit] at digit
  cases digit

theorem decodeBase64_encode (base64 : crypto.Base64) (bytes : List UInt8) :
    decodeBase64 crypto (crypto.base64Encode bytes) = .ok bytes := by
  rw [decodeBase64, base64.decodes]
  rfl

theorem decode32_encode (base64 : crypto.Base64) (key : Bytes32) :
    decode32 crypto (crypto.base64Encode key.toList) = .ok key := by
  have size : key.toList.length = 32 := Vector.length_toList
  rw [decode32, decodeBase64_encode base64]
  change (if size : key.toList.length = 32 then _ else _) = _
  rw [dif_pos size]
  congr 1

/-- **Credentials are read back as they were written.** -/
theorem parse_toSecretString (base64 : crypto.Base64) (creds : ScramCredentials)
    (bounded : creds.iterations < 2 ^ 32) :
    ScramCredentials.parse crypto (creds.toSecretString crypto) = .ok creds := by
  obtain ⟨-, saltColon, saltDollar⟩ := free_of_base64 base64 creds.salt
  obtain ⟨-, keyColon, -⟩ := free_of_base64 base64 creds.storedKey.toList
  have params : splitOnce (toString creds.iterations ++ ":" ++ crypto.base64Encode creds.salt) ':' =
      some (toString creds.iterations, crypto.base64Encode creds.salt) :=
    splitOnce_append (not_mem_toString (by decide)) _
  have keys : splitOnce (crypto.base64Encode creds.storedKey.toList ++ ":" ++
      crypto.base64Encode creds.serverKey.toList) ':' =
        some (crypto.base64Encode creds.storedKey.toList,
          crypto.base64Encode creds.serverKey.toList) :=
    splitOnce_append keyColon _
  have dollarFree : '$' ∉ (toString creds.iterations ++ ":" ++
      crypto.base64Encode creds.salt).toList := by
    rw [String.toList_append, String.toList_append, List.mem_append, List.mem_append]
    rintro ((digits | colon) | salt)
    · exact not_mem_toString (by decide) digits
    · exact absurd colon (by decide)
    · exact saltDollar salt
  have parts : splitOnce (toString creds.iterations ++ ":" ++ crypto.base64Encode creds.salt ++ "$" ++
      (crypto.base64Encode creds.storedKey.toList ++ ":" ++
        crypto.base64Encode creds.serverKey.toList)) '$' =
          some (toString creds.iterations ++ ":" ++ crypto.base64Encode creds.salt,
            crypto.base64Encode creds.storedKey.toList ++ ":" ++
              crypto.base64Encode creds.serverKey.toList) :=
    splitOnce_append dollarFree _
  unfold ScramCredentials.parse ScramCredentials.toSecretString
  rw [stripPrefix_append]
  dsimp only [okOr, Bind.bind, Except.bind]
  rw [parts]
  dsimp only
  rw [params, keys]
  dsimp only
  rw [parseU32_toString bounded, decodeBase64_encode base64, decode32_encode base64,
    decode32_encode base64]

end Credentials

section Acceptance

/-- The exclusive or is undone by taking it again. -/
theorem xorBytes_cancel {a b : List UInt8} (lengths : a.length = b.length) :
    xorBytes (xorBytes a b) b = a := by
  induction a generalizing b with
  | nil => rfl
  | cons first rest ih =>
      obtain ⟨other, others, rfl⟩ := List.exists_cons_of_length_eq_add_one lengths.symm
      have later := ih (Nat.succ.inj lengths)
      unfold xorBytes at later ⊢
      rw [List.zipWith_cons_cons, List.zipWith_cons_cons, later, UInt8.xor_assoc, UInt8.xor_self,
        UInt8.xor_zero]

/-- Text without the first character of a pattern is before it. -/
theorem beforeFirst_append {char : Char} {text : List Char} (free : char ∉ text)
    (pattern rest : List Char) :
    beforeFirst (char :: pattern) (text ++ rest) = text ++ beforeFirst (char :: pattern) rest := by
  induction text with
  | nil => rfl
  | cons first others ih =>
      obtain ⟨differs, free⟩ := not_or.mp (mt List.mem_cons.mpr free)
      have notHere : ((char :: pattern).isPrefixOf (first :: (others ++ rest))) = false := by
        rw [List.isPrefixOf, beq_false_of_ne differs, Bool.false_and]
      rw [List.cons_append, beforeFirst, notHere, if_neg Bool.false_ne_true, ih free]
      rfl

/-- The proof is cut off the last message of the client. -/
theorem withoutProof_eq {nonce : String} (free : ',' ∉ nonce.toList) (proof : String) :
    String.ofList (beforeFirst ",p=".toList ("c=biws,r=" ++ nonce ++ ",p=" ++ proof).toList) =
      "c=biws,r=" ++ nonce := by
  have parts : ("c=biws,r=" ++ nonce ++ ",p=" ++ proof).toList =
      "c=biws".toList ++ (',' :: ("r=".toList ++ (nonce.toList ++ (",p=".toList ++ proof.toList)))) := by
    simp only [String.toList_append, List.append_assoc]
    rfl
  have nonceFree : ',' ∉ "r=".toList ++ nonce.toList := by
    rw [List.mem_append]
    exact not_or.mpr ⟨by decide, free⟩
  have startFree : ',' ∉ "c=biws".toList := by decide
  have notHere (rest : List Char) : beforeFirst [',', 'p', '='] (',' :: ("r=".toList ++ rest)) =
      ',' :: beforeFirst [',', 'p', '='] ("r=".toList ++ rest) := rfl
  have here (rest : List Char) : beforeFirst [',', 'p', '='] (",p=".toList ++ rest) = [] := rfl
  have cut : beforeFirst ",p=".toList ("c=biws,r=" ++ nonce ++ ",p=" ++ proof).toList =
      "c=biws".toList ++ (',' :: ("r=".toList ++ nonce.toList)) := by
    rw [parts]
    change beforeFirst [',', 'p', '='] _ = _
    rw [beforeFirst_append startFree, notHere, ← List.append_assoc "r=".toList,
      beforeFirst_append nonceFree, here, List.append_nil]
  have whole : ("c=biws,r=" ++ nonce).toList =
      "c=biws".toList ++ (',' :: ("r=".toList ++ nonce.toList)) := by
    rw [String.toList_append]
    rfl
  rw [cut, ← whole, String.ofList_toList]

variable {crypto : Crypto} {user nonce combined : String}

/-- The client's nonce is found in its first message. -/
theorem parseAttrs_clientFirst (userFree : ',' ∉ user.toList) (nonceFree : ',' ∉ nonce.toList) :
    ∃ attrs, parseAttrs ("n=" ++ user ++ ",r=" ++ nonce) = .ok attrs ∧ attrs["r"]? = some nonce := by
  have text : "n=" ++ user ++ ",r=" ++ nonce = attrTexts [("n", user), ("r", nonce)] := by
    apply String.toList_inj.mp
    simp only [attrTexts, attrText, String.toList_append, List.append_assoc]
    rfl
  have clean (attr : String × String) (member : attr ∈ [("n", user), ("r", nonce)]) :
      CleanAttr attr := by
    simp only [List.mem_cons, List.not_mem_nil, or_false] at member
    rcases member with rfl | rfl
    · exact cleanAttr (by decide) (by decide) userFree
    · exact cleanAttr (by decide) (by decide) nonceFree
  refine ⟨_, text ▸ parseAttrs_attrTexts _ (List.cons_ne_nil _ _) clean, ?_⟩
  exact ExtTreeMap.getElem?_insert_self

/-- The three attributes of the later messages are found in them. -/
theorem parseAttrs_three {first second third a b c : String}
    (firstKey : CleanAttr (first, a)) (secondKey : CleanAttr (second, b))
    (thirdKey : CleanAttr (third, c)) (apart : first ≠ second) (apart' : first ≠ third)
    (apart'' : second ≠ third) :
    ∃ attrs, parseAttrs (attrTexts [(first, a), (second, b), (third, c)]) = .ok attrs ∧
      attrs[first]? = some a ∧ attrs[second]? = some b ∧ attrs[third]? = some c := by
  have clean (attr : String × String)
      (member : attr ∈ [(first, a), (second, b), (third, c)]) : CleanAttr attr := by
    simp only [List.mem_cons, List.not_mem_nil, or_false] at member
    rcases member with rfl | rfl | rfl
    · exact firstKey
    · exact secondKey
    · exact thirdKey
  refine ⟨_, parseAttrs_attrTexts _ (List.cons_ne_nil _ _) clean, ?_, ?_, ?_⟩
  · simp only [List.foldl_cons, List.foldl_nil, ExtTreeMap.getElem?_insert,
      Std.compare_eq_iff_eq, if_neg apart'.symm, if_neg apart.symm, if_pos]
  · simp only [List.foldl_cons, List.foldl_nil, ExtTreeMap.getElem?_insert,
      Std.compare_eq_iff_eq, if_neg apart''.symm, if_pos]
  · simp only [List.foldl_cons, List.foldl_nil, ExtTreeMap.getElem?_insert_self]

/-- The first message of the server. -/
def serverFirst (crypto : Crypto) (creds : ScramCredentials) (combined : String) : String :=
  "r=" ++ combined ++ ",s=" ++ crypto.base64Encode creds.salt ++ ",i=" ++ toString creds.iterations

theorem start_clientFirst (creds : ScramCredentials) (serverNonce : List UInt8)
    (userFree : ',' ∉ user.toList) (nonceFree : ',' ∉ nonce.toList) (present : nonce ≠ "") :
    let first := serverFirst crypto creds (nonce ++ crypto.base64Encode serverNonce)
    ScramSession.start crypto creds serverNonce ("n,," ++ ("n=" ++ user ++ ",r=" ++ nonce)) =
      .ok ({ creds, clientFirstBare := "n=" ++ user ++ ",r=" ++ nonce, serverFirst := first,
             clientNonce := nonce }, first) := by
  obtain ⟨attrs, parsed, found⟩ := parseAttrs_clientFirst userFree nonceFree
  unfold ScramSession.start stripGs2Header
  rw [stripPrefix_append]
  dsimp only [Bind.bind, Except.bind]
  rw [parsed]
  dsimp only
  rw [found]
  dsimp only [okOr]
  rw [if_neg present]
  rfl

/-- What a client with the password answers. -/
theorem buildClientFinal_eq (base64 : crypto.Base64) (password bare : String)
    (creds : ScramCredentials) (bounded : creds.iterations < 2 ^ 32)
    (combinedFree : ',' ∉ combined.toList) :
    let salted := hi crypto password creds.salt creds.iterations
    let clientKey := crypto.hmacSha256 salted.toList (utf8Bytes "Client Key")
    let signature := crypto.hmacSha256 (crypto.sha256 clientKey.toList).toList
      (utf8Bytes (authMessage bare (serverFirst crypto creds combined) ("c=biws,r=" ++ combined)))
    buildClientFinal crypto password ("n,," ++ bare) (serverFirst crypto creds combined) =
      .ok ("c=biws,r=" ++ combined ++ ",p=" ++
        crypto.base64Encode (xorBytes clientKey.toList signature.toList)) := by
  intro salted clientKey signature
  have text : serverFirst crypto creds combined =
      attrTexts [("r", combined), ("s", crypto.base64Encode creds.salt),
        ("i", toString creds.iterations)] := by
    apply String.toList_inj.mp
    simp only [serverFirst, attrTexts, attrText, String.toList_append, List.append_assoc]
    rfl
  have nonceClean : CleanAttr ("r", combined) := cleanAttr (by decide) (by decide) combinedFree
  have saltClean : CleanAttr ("s", crypto.base64Encode creds.salt) :=
    cleanAttr (by decide) (by decide) (free_of_base64 base64 creds.salt).1
  have iterationsClean : CleanAttr ("i", toString creds.iterations) :=
    cleanAttr (by decide) (by decide) (not_mem_toString (by decide))
  obtain ⟨attrs, parsed, nonceFound, saltFound, iterationsFound⟩ :=
    parseAttrs_three nonceClean saltClean iterationsClean (by decide) (by decide) (by decide)
  rw [← text] at parsed
  unfold buildClientFinal stripGs2Header
  rw [stripPrefix_append]
  dsimp only [Bind.bind, Except.bind]
  rw [parsed]
  dsimp only
  rw [saltFound, iterationsFound, nonceFound]
  dsimp only [okOr]
  rw [decodeBase64_encode base64, parseU32_toString bounded]
  rfl

/-- The answer of the client is accepted, and the server signs the same message. -/
theorem finish_clientFinal (base64 : crypto.Base64) (session : ScramSession) (suffix : String)
    (clientKey : Bytes32) (stored : session.creds.storedKey = crypto.sha256 clientKey.toList)
    (nonceFree : ',' ∉ session.clientNonce.toList) (suffixFree : ',' ∉ suffix.toList) :
    let combined := session.clientNonce ++ suffix
    let message := authMessage session.clientFirstBare session.serverFirst ("c=biws,r=" ++ combined)
    let signature := crypto.hmacSha256 session.creds.storedKey.toList (utf8Bytes message)
    session.finish crypto ("c=biws,r=" ++ combined ++ ",p=" ++
        crypto.base64Encode (xorBytes clientKey.toList signature.toList)) =
      .ok ("v=" ++ crypto.base64Encode
        (crypto.hmacSha256 session.creds.serverKey.toList (utf8Bytes message)).toList) := by
  intro combined message signature
  have combinedFree : ',' ∉ combined.toList := by
    rw [String.toList_append, List.mem_append]
    exact not_or.mpr ⟨nonceFree, suffixFree⟩
  have text : "c=biws,r=" ++ combined ++ ",p=" ++
      crypto.base64Encode (xorBytes clientKey.toList signature.toList) =
        attrTexts [("c", "biws"), ("r", combined),
          ("p", crypto.base64Encode (xorBytes clientKey.toList signature.toList))] := by
    apply String.toList_inj.mp
    simp only [attrTexts, attrText, String.toList_append, List.append_assoc]
    rfl
  have bindingClean : CleanAttr ("c", "biws") := cleanAttr (by decide) (by decide) (by decide)
  have nonceClean : CleanAttr ("r", combined) := cleanAttr (by decide) (by decide) combinedFree
  have proofClean :
      CleanAttr ("p", crypto.base64Encode (xorBytes clientKey.toList signature.toList)) :=
    cleanAttr (by decide) (by decide) (free_of_base64 base64 _).1
  obtain ⟨attrs, parsed, bindingFound, nonceFound, proofFound⟩ :=
    parseAttrs_three bindingClean nonceClean proofClean (by decide) (by decide) (by decide)
  rw [← text] at parsed
  have begins : session.clientNonce.toList.isPrefixOf combined.toList = true := by
    rw [String.toList_append, List.isPrefixOf_iff_prefix]
    exact List.prefix_append _ _
  have lengths : clientKey.toList.length = signature.toList.length := by
    rw [Vector.length_toList, Vector.length_toList]
  have key : xorBytes (xorBytes clientKey.toList signature.toList) signature.toList =
      clientKey.toList := xorBytes_cancel lengths
  unfold ScramSession.finish
  dsimp only [Bind.bind, Except.bind]
  rw [parsed]
  dsimp only
  rw [bindingFound, nonceFound, proofFound]
  dsimp only [okOr]
  rw [if_neg (by decide), begins]
  rw [if_neg (by decide), decodeBase64_encode base64, withoutProof_eq combinedFree]
  change (if crypto.sha256 (xorBytes (xorBytes clientKey.toList signature.toList)
    signature.toList) ≠ session.creds.storedKey then _ else _) = _
  rw [key, if_neg (not_not_intro stored.symm)]
  rfl

/-- **A client that knows the password is accepted.** The credentials made from the
password are read back as they were written; behind the client's first message, its answer
to the server is accepted, with the server's signature of the message that both have. -/
theorem honest_client_accepted (base64 : crypto.Base64) (password : String)
    (salt serverNonce : List UInt8) {iterations : Nat} (bounded : iterations < 2 ^ 32)
    (userFree : ',' ∉ user.toList) (nonceFree : ',' ∉ nonce.toList) (present : nonce ≠ "") :
    let creds := ScramCredentials.fromPasswordWithSalt crypto password salt iterations
    let clientFirst := "n,," ++ ("n=" ++ user ++ ",r=" ++ nonce)
    ScramCredentials.parse crypto (creds.toSecretString crypto) = .ok creds ∧
      ∃ session first clientFinal,
        ScramSession.start crypto creds serverNonce clientFirst = .ok (session, first) ∧
        buildClientFinal crypto password clientFirst first = .ok clientFinal ∧
        session.finish crypto clientFinal = .ok ("v=" ++ crypto.base64Encode
          (crypto.hmacSha256 creds.serverKey.toList (utf8Bytes
            (authMessage ("n=" ++ user ++ ",r=" ++ nonce) first
              ("c=biws,r=" ++ (nonce ++ crypto.base64Encode serverNonce))))).toList) := by
  intro creds clientFirst
  have suffixFree := (free_of_base64 base64 serverNonce).1
  have combinedFree : ',' ∉ (nonce ++ crypto.base64Encode serverNonce).toList := by
    rw [String.toList_append, List.mem_append]
    exact not_or.mpr ⟨nonceFree, suffixFree⟩
  refine ⟨parse_toSecretString base64 creds bounded, _, _, _,
    start_clientFirst creds serverNonce userFree nonceFree present,
    buildClientFinal_eq base64 password _ creds bounded combinedFree, ?_⟩
  exact finish_clientFinal base64
    { creds, clientFirstBare := "n=" ++ user ++ ",r=" ++ nonce, serverFirst := _,
      clientNonce := nonce }
    (crypto.base64Encode serverNonce) _ rfl nonceFree suffixFree

/-- Base64 as it is, with stand-ins for HMAC and the hash. -/
def Crypto.printed : Crypto where
  hmacSha256 key message := Vector.replicate 32 (UInt8.ofNat (key.length + 3 * message.length))
  sha256 bytes := Vector.replicate 32 (UInt8.ofNat (7 * bytes.length))
  base64Encode bytes := String.ofList (Foundation.Base64.encode bytes)
  base64Decode text :=
    match Foundation.Base64.decode text.toList with
    | some bytes => .ok bytes
    | none => .error "Invalid symbol"

theorem base64_printed : Crypto.printed.Base64 where
  decodes bytes := by
    change (match Foundation.Base64.decode (String.ofList
      (Foundation.Base64.encode bytes)).toList with
        | some bytes => _
        | none => _) = _
    rw [String.toList_ofList, Foundation.Base64.decode_encode]
  alphabet bytes separator listed := by
    change separator ∉ (String.ofList (Foundation.Base64.encode bytes)).toList
    rw [String.toList_ofList]
    intro member
    have letter := Foundation.Base64.mem_encode member
    simp only [List.mem_cons, List.not_mem_nil, or_false] at listed
    rcases listed with rfl | rfl | rfl
    · exact absurd letter (by decide +kernel)
    · exact absurd letter (by decide +kernel)
    · exact absurd letter (by decide +kernel)

/-- The exchange of the repository's tests. -/
theorem honest_client_accepted_pencil :
    ∃ session first clientFinal signature,
      ScramSession.start Crypto.printed
          (ScramCredentials.fromPasswordWithSalt Crypto.printed "pencil" [170, 197, 212] 4096)
          [1, 2, 3] ("n,," ++ ("n=" ++ "user" ++ ",r=" ++ "fyko+dJokKKxb5l1jPgXg==")) =
        .ok (session, first) ∧
      buildClientFinal Crypto.printed "pencil"
          ("n,," ++ ("n=" ++ "user" ++ ",r=" ++ "fyko+dJokKKxb5l1jPgXg==")) first =
        .ok clientFinal ∧
      session.finish Crypto.printed clientFinal = .ok ("v=" ++ signature) := by
  have bounded : 4096 < 2 ^ 32 := by decide
  have userFree : ',' ∉ "user".toList := by decide
  have nonceFree : ',' ∉ "fyko+dJokKKxb5l1jPgXg==".toList := by decide
  obtain ⟨-, session, first, clientFinal, started, answered, finished⟩ :=
    honest_client_accepted base64_printed "pencil" [170, 197, 212] [1, 2, 3] bounded userFree
      nonceFree (by decide)
  exact ⟨session, first, clientFinal, _, started, answered, finished⟩

end Acceptance

end MoodengSQL
