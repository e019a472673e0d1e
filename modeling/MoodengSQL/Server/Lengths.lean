import MoodengSQL.Server.Steps

/-!
# Lengths and cuts

What becomes of a length a client sends, of the start-up message, and of the
preview of a text. What else a connection does with the bytes it has received
checks before it reads, and ends in an error at worst.
-/

namespace MoodengSQL

open Foundation Effect ConnM

section Lengths

/-- The length field the client sends next. -/
def nextLength (s : ConnState) : Int := (Int32.ofNat (fromBeBytes (s.input.take 4))).toInt

/-- The length field that comes next leads to an error, or to a payload of exactly
`length - 4` bytes. -/
def LengthFits (s : ConnState) : Prop :=
  ∀ ⦃len s'⦄, readI32 s = .ok len s' →
    (∃ message after, readBody (asUsize len) s' = .error (.error message) after) ∨
      ∃ payload after, readBody (asUsize len) s' = .ok payload after ∧
        4 ≤ len.toInt ∧ len.toInt < 2 ^ 31 ∧ (payload.length : Int) = len.toInt - 4

/-- A start-up message that is read has room for the protocol version. -/
def VersionFits (s : ConnState) : Prop :=
  ∀ ⦃len s' buf after⦄, readI32 s = .ok len s' → readBody (asUsize len) s' = .ok buf after →
    ∃ version, getI32 buf = .ok version

theorem readI32_eq_ok {s s' : ConnState} {len : Int32} : readI32 s = .ok len s' ↔
    4 ≤ s.input.length ∧ len.toInt = nextLength s ∧ s' = { s with input := s.input.drop 4 } := by
  unfold readI32 nextLength
  rw [bind_eq_ok]
  constructor
  · rintro ⟨bytes, mid, read, ended⟩
    obtain ⟨rfl, rfl⟩ := pure_eq_ok.mp ended
    unfold readExact at read
    split at read
    · next enough =>
        cases read
        exact ⟨enough, rfl, rfl⟩
    · cases read
  · rintro ⟨enough, same, rfl⟩
    refine ⟨s.input.take 4, _, if_pos enough, ?_⟩
    rw [← Int32.toInt_inj.mp same]
    rfl

theorem asUsize_of_nonneg {len : Int32} (nonneg : 0 ≤ len.toInt) :
    asUsize len = len.toInt.toNat := by
  have small : len.toInt < 2 ^ 31 := Int32.toInt_lt len
  unfold asUsize
  rw [Int.emod_eq_of_lt nonneg (by omega)]

/-- A negative length asks for a vector that is too large. -/
theorem readBody_negative {len : Int32} (negative : len.toInt < 0) :
    readBody (asUsize len) = throw (.panic "capacity overflow") := by
  have large : -2 ^ 31 ≤ len.toInt := Int32.le_toInt len
  unfold readBody asUsize
  rw [if_pos (by omega)]

/-- Any other length asks for the bytes after itself, if it counts any. -/
theorem readBody_nonneg {len : Int32} (nonneg : 0 ≤ len.toInt) :
    readBody (asUsize len) = readExact (len.toInt.toNat - 4) := by
  have small : len.toInt < 2 ^ 31 := Int32.toInt_lt len
  unfold readBody
  rw [asUsize_of_nonneg nonneg, if_neg (by omega)]

theorem readExact_eq_ok {n : Nat} {s s' : ConnState} {bytes : List UInt8} :
    readExact n s = .ok bytes s' ↔ n ≤ s.input.length ∧ bytes = s.input.take n ∧
      s' = { s with input := s.input.drop n } := by
  unfold readExact
  split
  · next enough => simp [enough, eq_comm]
  · next short => simp [short]

/-- A read that is cut short is an error. -/
theorem readExact_cases (n : Nat) (s : ConnState) :
    (∃ message after, readExact n s = .error (.error message) after) ∨
      ∃ bytes after, readExact n s = .ok bytes after ∧ bytes.length = n := by
  by_cases enough : n ≤ s.input.length
  · exact .inr ⟨_, _, if_pos enough, List.length_take_of_le enough⟩
  · exact .inl ⟨_, _, if_neg enough⟩

/-- **Which lengths fit.** The length that comes next leads to an error or to a
payload of its size exactly if it counts its own four bytes. -/
theorem lengthFits_iff {s : ConnState} :
    LengthFits s ↔ s.input.length < 4 ∨ 4 ≤ nextLength s := by
  constructor
  · intro fits
    by_contra! bad
    obtain ⟨enough, small⟩ := bad
    have read : readI32 s = .ok (Int32.ofNat (fromBeBytes (s.input.take 4)))
        { s with input := s.input.drop 4 } := readI32_eq_ok.mpr ⟨enough, rfl, rfl⟩
    obtain ⟨message, after, failed⟩ | ⟨payload, after, -, large, -⟩ := fits read
    · by_cases negative : nextLength s < 0
      · rw [readBody_negative negative] at failed
        exact nomatch (throw_eq_error.mp failed).1
      · have empty : nextLength s - 4 ≤ 0 := by omega
        rw [readBody_nonneg (not_lt.mp negative)] at failed
        change readExact ((nextLength s).toNat - 4) _ = _ at failed
        rw [show (nextLength s).toNat - 4 = 0 by omega] at failed
        cases failed
    · exact absurd large (not_le.mpr small)
  · rintro counts len s' read
    obtain ⟨enough, same, rfl⟩ := readI32_eq_ok.mp read
    have small : len.toInt < 2 ^ 31 := Int32.toInt_lt len
    have itself : 4 ≤ len.toInt := by omega
    rw [readBody_nonneg (by omega)]
    refine (readExact_cases _ _).imp_right ?_
    rintro ⟨payload, after, took, size⟩
    exact ⟨payload, after, took, itself, small, by omega⟩

theorem getI32_eq_ok_iff {buf : List UInt8} :
    (∃ version, getI32 buf = .ok version) ↔ 4 ≤ buf.length := by
  unfold getI32
  split <;> simp_all

/-- **Which start-up messages fit.** A length that fits has to count the version too,
unless the message is cut short. -/
theorem startup_fits_iff {s : ConnState} : LengthFits s ∧ VersionFits s ↔
    s.input.length < 4 ∨ 4 ≤ nextLength s ∧ (8 ≤ nextLength s ∨ s.input.length < nextLength s) := by
  rw [lengthFits_iff]
  constructor
  · rintro ⟨short | counts, versionFits⟩
    · exact .inl short
    · by_contra! bad
      obtain ⟨enough, bad⟩ := bad
      obtain ⟨small, whole⟩ := bad counts
      have read : readI32 s = .ok (Int32.ofNat (fromBeBytes (s.input.take 4)))
          { s with input := s.input.drop 4 } := readI32_eq_ok.mpr ⟨enough, rfl, rfl⟩
      have body : readBody (asUsize (Int32.ofNat (fromBeBytes (s.input.take 4))))
          { s with input := s.input.drop 4 } = .ok
            ((s.input.drop 4).take ((nextLength s).toNat - 4))
            { s with input := (s.input.drop 4).drop ((nextLength s).toNat - 4) } := by
        rw [readBody_nonneg (show 0 ≤ nextLength s by omega)]
        refine readExact_eq_ok.mpr ⟨?_, rfl, rfl⟩
        change (nextLength s).toNat - 4 ≤ (s.input.drop 4).length
        rw [List.length_drop]
        omega
      have room := getI32_eq_ok_iff.mp (versionFits read body)
      rw [List.length_take] at room
      omega
  · rintro (short | ⟨counts, large⟩)
    · refine ⟨.inl short, fun len s' buf after read => ?_⟩
      exact absurd (readI32_eq_ok.mp read).1 (by omega)
    · refine ⟨.inr counts, fun len s' buf after read body => ?_⟩
      obtain ⟨enough, same, rfl⟩ := readI32_eq_ok.mp read
      rw [readBody_nonneg (by omega)] at body
      obtain ⟨whole, rfl, -⟩ := readExact_eq_ok.mp body
      dsimp only at whole
      apply getI32_eq_ok_iff.mpr
      rw [List.length_take_of_le whole]
      rw [List.length_drop] at whole
      omega

end Lengths

section Cuts

/-- A text on one line, as the preview of a statement shows it. -/
def oneLine (sql : String) : List Char := List.intercalate [' '] (splitWhitespace sql.toList)

/-- The bytes of characters. -/
def byteLength (chars : List Char) : Nat := (chars.map Char.utf8Size).sum

theorem byteLength_eq (chars : List Char) :
    (utf8Bytes (String.ofList chars)).length = byteLength chars := by
  unfold utf8Bytes byteLength
  rw [String.toList_ofList]
  induction chars with
  | nil => rfl
  | cons char rest ih =>
      rw [List.flatMap_cons, List.length_append, ih, String.length_utf8EncodeChar, List.map_cons,
        List.sum_cons]

/-- **Where a text can be cut.** A cut is in order exactly if some characters at the
start take that many bytes. -/
theorem sliceTo_iff (n : Nat) (chars : List Char) :
    (∃ cut, sliceTo n chars = .ok cut) ↔ ∃ cut, cut <+: chars ∧ byteLength cut = n := by
  induction chars generalizing n with
  | nil =>
      cases n with
      | zero => exact iff_of_true ⟨[], rfl⟩ ⟨[], List.nil_prefix, rfl⟩
      | succ n =>
          refine iff_of_false (by rintro ⟨cut, ⟨⟩⟩) ?_
          rintro ⟨cut, isPrefix, size⟩
          rw [List.prefix_nil.mp isPrefix] at size
          cases size
  | cons char rest ih =>
      have positive : 0 < char.utf8Size := char.utf8Size_pos
      cases n with
      | zero => exact iff_of_true ⟨[], rfl⟩ ⟨[], List.nil_prefix, rfl⟩
      | succ n =>
          have later : (∃ cut, sliceTo (n + 1) (char :: rest) = .ok cut) ↔
              char.utf8Size ≤ n + 1 ∧ ∃ cut, sliceTo (n + 1 - char.utf8Size) rest = .ok cut := by
            rw [sliceTo]
            split
            · next fits =>
                cases sliceTo (n + 1 - char.utf8Size) rest <;> simp [fits, Except.map]
            · next wide => simp [wide]
          rw [later, ih]
          constructor
          · rintro ⟨fits, cut, isPrefix, size⟩
            refine ⟨char :: cut, List.cons_prefix_cons.mpr ⟨rfl, isPrefix⟩, ?_⟩
            change char.utf8Size + byteLength cut = n + 1
            omega
          · rintro ⟨cut, isPrefix, size⟩
            cases cut with
            | nil => cases size
            | cons first cut =>
                obtain ⟨rfl, begins⟩ := List.cons_prefix_cons.mp isPrefix
                change first.utf8Size + byteLength cut = n + 1 at size
                exact ⟨by omega, cut, begins, by omega⟩

/-- A text has a preview: it is short on one line, or a character of it begins after
200 bytes. -/
def HasCut (sql : String) : Prop :=
  byteLength (oneLine sql) ≤ 200 ∨ ∃ cut, cut <+: oneLine sql ∧ byteLength cut = 200

theorem summarizeSql_iff (sql : String) :
    (∃ preview, summarizeSql sql = .ok preview) ↔ HasCut sql := by
  unfold summarizeSql HasCut
  rw [← sliceTo_iff, ← byteLength_eq]
  change (∃ preview, (if (utf8Bytes (String.ofList (oneLine sql))).length ≤ 200 then _ else
    (sliceTo 200 (oneLine sql)).map _) = _) ↔ _
  split
  · next short => simp [short]
  · next long =>
      simp only [long, false_or]
      cases sliceTo 200 (oneLine sql) <;> simp [Except.map]

end Cuts

section Calm

/-- A failure that is returned: not a panic. -/
def Returned (e : ServerFailure) : Prop := ∃ message, e = .error message

/-- The computation does not panic, wherever it starts. -/
def Calm {α : Type} (m : ConnM α) : Prop := ∀ s, FailsOnly (fun e _ => Returned e) m s

/-- A result that is not a panic. -/
def CalmResult {α : Type} (result : Except ServerFailure α) : Prop :=
  ∀ ⦃e⦄, result = .error e → Returned e

section Results

variable {α β : Type}

theorem CalmResult.ok (a : α) : CalmResult (.ok a : Except ServerFailure α) := fun _ => nofun

theorem CalmResult.error (message : String) :
    CalmResult (.error (.error message) : Except ServerFailure α) := by
  rintro e ⟨⟩
  exact ⟨message, rfl⟩

theorem CalmResult.seq {result : Except ServerFailure α} {f : α → Except ServerFailure β}
    (first : CalmResult result) (next : ∀ a, CalmResult (f a)) : CalmResult (result >>= f) := by
  cases result with
  | ok a => exact next a
  | error e =>
      rintro e' ⟨⟩
      exact first rfl

theorem CalmResult.map {result : Except ServerFailure α} (calm : CalmResult result) (f : α → β) :
    CalmResult (result.map f) := by
  cases result with
  | ok a => exact .ok _
  | error e =>
      rintro e' ⟨⟩
      exact calm rfl

theorem calmResult_okOr (value : Option α) (message : String) : CalmResult (okOr value message) := by
  cases value with
  | some a => exact .ok a
  | none => exact .error message

theorem calmResult_parseAttrParts (parts : List String) (out : Map String String) :
    CalmResult (parseAttrParts parts out) := by
  induction parts generalizing out with
  | nil => exact .ok out
  | cons part rest ih =>
      unfold parseAttrParts
      split
      · exact ih _
      · exact .error _

/-- The start of a SCRAM exchange takes any text of the client. -/
theorem calmResult_start (crypto : Crypto) (creds : ScramCredentials) (nonce : List UInt8)
    (clientFirst : String) : CalmResult (ScramSession.start crypto creds nonce clientFirst) := by
  have header : CalmResult (stripGs2Header clientFirst) := by
    unfold stripGs2Header
    split
    · exact .ok _
    · split
      · exact .ok _
      · exact .error _
  refine header.seq fun bare => (calmResult_parseAttrParts _ _).seq fun attrs => ?_
  refine (calmResult_okOr _ _).seq fun clientNonce => ?_
  dsimp only
  split
  · exact .error _
  · exact .ok _

/-- The parameters of a `Bind` message are read as far as they go. -/
theorem calmResult_bindParams (count : Nat) (cur : List UInt8) :
    CalmResult (bindParams count cur) := by
  induction count generalizing cur with
  | zero => exact .ok _
  | succ count ih =>
      unfold bindParams
      split
      · next enough =>
          have read : CalmResult (getI32 cur) := by
            unfold getI32
            rw [if_pos enough]
            exact .ok _
          refine read.seq fun entry => ?_
          dsimp only
          split
          · exact (ih _).seq fun _ => .ok _
          · split
            · exact (ih _).seq fun _ => .ok _
            · exact ih _
      · exact ih cur

theorem calmResult_getI16 {cur : List UInt8} (enough : 2 ≤ cur.length) :
    CalmResult (getI16 cur) := by
  unfold getI16
  rw [if_pos enough]
  exact .ok _

/-- So is the rest of it. -/
theorem calmResult_handleBind (payload : List UInt8) (conn : ConnectionSession) :
    CalmResult (handleBind payload conn) := by
  have counted : ∀ entry : Int16 × List UInt8,
      CalmResult (bindParams entry.1.toInt.toNat entry.2 >>= fun params =>
        (pure (some params) : Except ServerFailure _)) := fun entry =>
    (calmResult_bindParams _ _).seq fun _ => .ok _
  rw [handleBind_eq]
  apply CalmResult.map
  unfold boundParams
  dsimp only
  split
  · next enough =>
      refine ((calmResult_getI16 enough).map _).seq fun cur => ?_
      split
      · next more => exact (calmResult_getI16 more).seq counted
      · exact .ok _
  · refine (CalmResult.ok _).seq fun cur => ?_
    split
    · next more => exact (calmResult_getI16 more).seq counted
    · exact .ok _

end Results

namespace Calm

variable {α β : Type}

theorem seq {m : ConnM α} {f : α → ConnM β} (first : Calm m) (next : ∀ a, Calm (f a)) :
    Calm (m >>= f) := fun s => (first s).seq fun a mid _ => next a mid

theorem ret (a : α) : Calm (pure a : ConnM α) := FailsOnly.ret a

theorem fail (message : String) : Calm (throw (.error message) : ConnM α) :=
  fun _ => .fail ⟨message, rfl⟩

theorem lift {result : Except ServerFailure α} (calm : CalmResult result) :
    Calm (ConnM.lift result) := by
  cases result with
  | ok a => exact ret a
  | error e =>
      obtain ⟨message, rfl⟩ := calm rfl
      exact fail message

end Calm

section Parts

theorem calm_emit (event : ConnEvent) : Calm (emit event) := FailsOnly.write _

theorem calm_modifyConn (f : ConnectionSession → ConnectionSession) : Calm (modifyConn f) :=
  FailsOnly.write _

theorem calm_pushBack (bytes : List UInt8) : Calm (pushBack bytes) := FailsOnly.write _

theorem calm_readExact (n : Nat) : Calm (readExact n) := by
  intro s e s' failed
  unfold readExact at failed
  split at failed <;> cases failed
  exact ⟨_, rfl⟩

theorem calm_readU8 : Calm readU8 := .seq (calm_readExact 1) fun _ => .ret _

theorem calm_readI32 : Calm readI32 := .seq (calm_readExact 4) fun _ => .ret _

theorem calm_writeAll : Calm writeAll := by
  intro s e s' failed
  obtain ⟨input, outages, conn, db, trace⟩ := s
  rcases outages with _ | ⟨_ | _, rest⟩ <;> cases failed
  exact ⟨_, rfl⟩

theorem calm_acceptTls (accept : TlsAcceptor) : Calm (acceptTls accept) := by
  intro s e s' failed
  unfold acceptTls at failed
  split at failed <;> cases failed
  exact ⟨_, rfl⟩

theorem calm_sendMessage (tag : Char) (body : List UInt8) : Calm (sendMessage tag body) := by
  refine .seq (calm_emit _) fun _ => .seq calm_writeAll fun _ => ?_
  exact .seq calm_writeAll fun _ => calm_writeAll

theorem calm_writeU8 (byte : Char) : Calm (writeU8 byte) :=
  .seq (calm_emit _) fun _ => calm_writeAll

theorem calm_sendError (msg : String) : Calm (sendError msg) := calm_sendMessage _ _

theorem calm_sendReady : Calm sendReady := fun s => calm_sendMessage _ _ s

theorem calm_sendParameters (entries : List (String × String)) : Calm (sendParameters entries) := by
  induction entries with
  | nil => exact .ret _
  | cons entry rest ih => exact .seq (calm_sendMessage _ _) fun _ => ih

theorem calm_welcome : Calm welcome := by
  refine .seq (calm_sendMessage _ _) fun _ => .seq (calm_sendParameters _) fun _ => ?_
  exact .seq (calm_sendMessage _ _) fun _ => calm_modifyConn _

variable [Runtime]

theorem calm_sendRows (rows : List Row) : Calm (sendRows rows) := by
  induction rows with
  | nil => exact .ret _
  | cons row rest ih => exact .seq (calm_sendMessage _ _) fun _ => ih

theorem calm_sendQueryResult (result : QueryResult) : Calm (sendQueryResult result) := by
  unfold sendQueryResult
  split
  · exact calm_sendMessage _ _
  · refine .seq (calm_sendMessage _ _) fun _ => .seq (calm_sendRows _) fun _ => ?_
    exact calm_sendMessage _ _

end Parts

end Calm

end MoodengSQL
