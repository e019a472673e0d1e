import MoodengSQL.Server.Portals
import MoodengSQL.Server.Utf8

/-!
# What Bind stores

The bytes of a `Bind` message, and what `handle_bind` keeps of them. It reads the
number of format codes and then takes the codes for what follows them, so the
parameters arrive only where there are no codes; and it takes their number for a
signed one.
-/

namespace MoodengSQL

section Messages

/-- The bytes of a parameter: its length and its text, or no text at the length −1. -/
def paramBytes : Option String → List UInt8
  | none => toBeBytes 4 (2 ^ 32 - 1)
  | some text => toBeBytes 4 (utf8Bytes text).length ++ utf8Bytes text

/-- A well-formed `Bind` message in which all parameters are texts: the portal, the
statement, the number of parameter format codes, each of which is the one of a
text, the parameters and the result format codes. -/
structure BindMessage where
  portal : String
  statement : String
  formats : Nat
  params : List (Option String)
  results : List UInt16
  portalZeroFree : '\x00' ∉ portal.toList
  statementZeroFree : '\x00' ∉ statement.toList
  formatsCounted : formats < 2 ^ 16
  paramsCounted : params.length < 2 ^ 16
  paramsFit : ∀ text, some text ∈ params → (utf8Bytes text).length < 2 ^ 31
  resultsCounted : results.length < 2 ^ 16

namespace BindMessage

variable (message : BindMessage)

/-- The format codes, those of a text. -/
def formatBytes : List UInt8 := (List.replicate message.formats (toBeBytes 2 0)).flatten

/-- The parameters and the result format codes, each with their number. -/
def valueBytes : List UInt8 :=
  toBeBytes 2 message.params.length ++ message.params.flatMap paramBytes ++
    toBeBytes 2 message.results.length ++
    message.results.flatMap fun code => toBeBytes 2 code.toNat

/-- The bytes of the message behind its tag and its length. -/
def payload : List UInt8 :=
  utf8Bytes message.portal ++ 0 :: (utf8Bytes message.statement ++ 0 ::
    (toBeBytes 2 message.formats ++ message.formatBytes ++ message.valueBytes))

/-- `handle_bind` gets all the parameters: there are no format codes before them,
and their number is not taken for a negative one; or there are none. -/
def Aligned : Prop :=
  message.formats = 0 ∧ message.params.length < 2 ^ 15 ∨ message.params = []

end BindMessage

end Messages

section Reading

theorem getI16_toBeBytes (n : Nat) (rest : List UInt8) :
    getI16 (toBeBytes 2 n ++ rest) = .ok (Int16.ofNat (n % 2 ^ 16), rest) := by
  have size : (toBeBytes 2 n).length = 2 := toBeBytes_length 2 n
  unfold getI16
  rw [if_pos (by rw [List.length_append]; omega), List.take_append_of_le_length (by omega),
    List.take_of_length_le (by omega), List.drop_left' size, fromBeBytes_toBeBytes]
  rfl

theorem getI32_toBeBytes (n : Nat) (rest : List UInt8) :
    getI32 (toBeBytes 4 n ++ rest) = .ok (Int32.ofNat (n % 2 ^ 32), rest) := by
  have size : (toBeBytes 4 n).length = 4 := toBeBytes_length 4 n
  unfold getI32
  rw [if_pos (by rw [List.length_append]; omega), List.take_append_of_le_length (by omega),
    List.take_of_length_le (by omega), List.drop_left' size, fromBeBytes_toBeBytes]
  rfl

/-- One turn of the loop over the parameters reads one parameter. -/
theorem bindParams_succ {param : Option String} (count : Nat) (rest : List UInt8)
    (fits : ∀ text, param = some text → (utf8Bytes text).length < 2 ^ 31) :
    bindParams (count + 1) (paramBytes param ++ rest) =
      (bindParams count rest).map (param :: ·) := by
  cases param with
  | none =>
      have negative : Int32.ofNat ((2 ^ 32 - 1) % 2 ^ 32) < 0 := by decide
      have enough : 4 ≤ (paramBytes none ++ rest).length := by
        rw [List.length_append, show (paramBytes none).length = 4 from toBeBytes_length 4 _]
        omega
      rw [bindParams, if_pos enough, paramBytes, getI32_toBeBytes]
      dsimp only [Bind.bind, Except.bind]
      rw [if_pos negative]
      cases bindParams count rest <;> rfl
  | some text =>
      have short : (utf8Bytes text).length < 2 ^ 31 := fits text rfl
      have length : (Int32.ofNat ((utf8Bytes text).length % 2 ^ 32)).toInt =
          (utf8Bytes text).length := by
        rw [Nat.mod_eq_of_lt (by omega), Int32.toInt_ofNat_of_lt short]
      have positive : ¬ Int32.ofNat ((utf8Bytes text).length % 2 ^ 32) < 0 := by
        rw [Int32.lt_iff_toInt_lt, length, Int32.toInt_zero]
        omega
      have size : asUsize (Int32.ofNat ((utf8Bytes text).length % 2 ^ 32)) =
          (utf8Bytes text).length := by
        rw [asUsize, length]
        omega
      have enough : 4 ≤ (paramBytes (some text) ++ rest).length := by
        rw [paramBytes, List.length_append, List.length_append, toBeBytes_length]
        omega
      rw [bindParams, if_pos enough, paramBytes, List.append_assoc, getI32_toBeBytes]
      dsimp only [Bind.bind, Except.bind]
      rw [if_neg positive, size, List.length_append, if_pos (Nat.le_add_right _ _),
        List.take_left' rfl, List.drop_left' rfl, fromUtf8Lossy_utf8Bytes]
      cases bindParams count rest <;> rfl

/-- The loop reads the parameters. -/
theorem bindParams_flatMap (params : List (Option String)) (rest : List UInt8)
    (fit : ∀ text, some text ∈ params → (utf8Bytes text).length < 2 ^ 31) :
    bindParams params.length (params.flatMap paramBytes ++ rest) = .ok params := by
  induction params with
  | nil => rfl
  | cons param params ih =>
      have first : ∀ text, param = some text → (utf8Bytes text).length < 2 ^ 31 :=
        fun text same => fit text (same ▸ List.mem_cons_self)
      rw [List.flatMap_cons, List.append_assoc, List.length_cons, bindParams_succ _ _ first,
        ih fun text mem => fit text (List.mem_cons_of_mem _ mem)]
      rfl

end Reading

section Stored

/-- The number of parameters, as `handle_bind` counts them. -/
theorem toNat_count {count : Nat} (small : count < 2 ^ 16) :
    (Int16.ofNat (count % 2 ^ 16)).toInt.toNat = if count < 2 ^ 15 then count else 0 := by
  rw [Nat.mod_eq_of_lt small]
  split
  case isTrue positive =>
    rw [Int16.toInt_ofNat_of_lt positive, Int.toNat_natCast]
  case isFalse negative =>
    rw [Int16.toInt_ofNat', Int.bmod_def, show Int16.size = 2 ^ 16 from rfl]
    omega

/-- The two numbers in front of the parameters, the second of which counts them. -/
theorem boundParams_toBeBytes (formats count : Nat) (rest : List UInt8) :
    boundParams (toBeBytes 2 formats ++ (toBeBytes 2 count ++ rest)) =
      (bindParams (Int16.ofNat (count % 2 ^ 16)).toInt.toNat rest).map some := by
  have formatted : 2 ≤ (toBeBytes 2 formats ++ (toBeBytes 2 count ++ rest)).length := by
    rw [List.length_append, toBeBytes_length]
    omega
  have counted : 2 ≤ (toBeBytes 2 count ++ rest).length := by
    rw [List.length_append, toBeBytes_length]
    omega
  unfold boundParams
  rw [if_pos formatted, getI16_toBeBytes]
  dsimp only [Except.map, Bind.bind, Except.bind]
  rw [if_pos counted, getI16_toBeBytes]
  dsimp only [Except.bind]
  cases bindParams (Int16.ofNat (count % 2 ^ 16)).toInt.toNat rest <;> rfl

namespace BindMessage

variable (message : BindMessage)

/-- Where there are no codes, the number of the parameters is read as such. -/
theorem boundParams_unformatted (unformatted : message.formats = 0) :
    boundParams (toBeBytes 2 message.formats ++ message.formatBytes ++ message.valueBytes) =
      .ok (some (if message.params.length < 2 ^ 15 then message.params else [])) := by
  have noCodes : message.formatBytes = [] := by
    rw [formatBytes, unformatted, List.replicate_zero, List.flatten_nil]
  rw [noCodes, List.append_nil, valueBytes, List.append_assoc, List.append_assoc,
    boundParams_toBeBytes, toNat_count message.paramsCounted]
  split
  · rw [bindParams_flatMap _ _ message.paramsFit]
    rfl
  · rfl

/-- Where there are codes, the first of them is read as the number, and it is zero. -/
theorem boundParams_formatted (formatted : message.formats ≠ 0) :
    boundParams (toBeBytes 2 message.formats ++ message.formatBytes ++ message.valueBytes) =
      .ok (some []) := by
  obtain ⟨codes, more⟩ := Nat.exists_eq_succ_of_ne_zero formatted
  have code : message.formatBytes =
      toBeBytes 2 0 ++ (List.replicate codes (toBeBytes 2 0)).flatten := by
    rw [formatBytes, more, List.replicate_succ, List.flatten_cons]
  rw [code, List.append_assoc, List.append_assoc, boundParams_toBeBytes]
  rfl

/-- `handle_bind` keeps the parameters it takes. -/
theorem portalParams_handleBind {params : List (Option String)} (conn : ConnectionSession)
    (taken : boundParams (toBeBytes 2 message.formats ++ message.formatBytes ++
      message.valueBytes) = .ok (some params)) :
    (handleBind message.payload conn).map ConnectionSession.portalParams = .ok params := by
  have portal : readCstringBuf message.payload = (message.portal,
      utf8Bytes message.statement ++ 0 ::
        (toBeBytes 2 message.formats ++ message.formatBytes ++ message.valueBytes)) :=
    readCstringBuf_utf8Bytes message.portalZeroFree _
  rw [handleBind_eq, portal, readCstringBuf_utf8Bytes message.statementZeroFree, taken]
  dsimp only [Except.map]
  rw [ConnectionSession.withStatement_eq]
  rfl

end BindMessage

/-- **`handle_bind` stores the parameters of a message where no format codes stand
before them and their number is not negative as a signed one, or where there are
none; and nowhere else.** -/
theorem bind_stores_params_iff (message : BindMessage) (conn : ConnectionSession) :
    (handleBind message.payload conn).map ConnectionSession.portalParams = .ok message.params ↔
      message.Aligned := by
  by_cases unformatted : message.formats = 0
  · rw [message.portalParams_handleBind conn (message.boundParams_unformatted unformatted)]
    by_cases positive : message.params.length < 2 ^ 15
    · rw [if_pos positive]
      exact ⟨fun _ => .inl ⟨unformatted, positive⟩, fun _ => rfl⟩
    · rw [if_neg positive, Except.ok.injEq]
      constructor
      · intro stored
        exact .inr stored.symm
      · rintro (⟨_, short⟩ | noParams)
        · exact absurd short positive
        · exact noParams.symm
  · rw [message.portalParams_handleBind conn (message.boundParams_formatted unformatted),
      Except.ok.injEq]
    constructor
    · intro stored
      exact .inr stored.symm
    · rintro (⟨noCodes, _⟩ | noParams)
      · exact absurd noCodes unformatted
      · exact noParams.symm

/-- A message with one parameter and the format code of it. -/
def formattedMessage : BindMessage where
  portal := ""
  statement := ""
  formats := 1
  params := [some "7"]
  results := []
  portalZeroFree := by decide
  statementZeroFree := by decide
  formatsCounted := by decide
  paramsCounted := by decide
  paramsFit := by
    intro text mem
    cases List.mem_singleton.mp mem
    decide
  resultsCounted := by decide

/-- The format code is taken for the number of the parameters, and none is stored. -/
theorem bind_loses_param :
    (handleBind formattedMessage.payload .new).map ConnectionSession.portalParams ≠
      .ok formattedMessage.params := by
  decide +kernel

end Stored

end MoodengSQL
