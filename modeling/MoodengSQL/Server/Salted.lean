import MoodengSQL.Server.Scram

/-!
# Salted passwords

`hi` against the function of that name in the SCRAM standard. The rounds are the same,
but the key and the message of every HMAC are exchanged, and the salt of the first one is
without the block number. No password, salt and number of rounds make up for that.
-/

namespace MoodengSQL

/-- The exclusive or of two keys. -/
def xor32 (a b : Bytes32) : Bytes32 := a.zipWith (· ^^^ ·) b

section Standard

variable (crypto : Crypto) (password salt : List UInt8)

/-- The HMAC values of the standard, the first one at zero: each has the password for its
key. The first one is of the salt with the number of the block. -/
def standardRound : Nat → Bytes32
  | 0 => crypto.hmacSha256 password (salt ++ [0, 0, 0, 1])
  | round + 1 => crypto.hmacSha256 password (standardRound round).toList

/-- `Hi` of the standard: the exclusive or of the values. -/
def standardHi : Nat → Bytes32
  | 0 => Vector.replicate 32 0
  | rounds + 1 => xor32 (standardHi rounds) (standardRound crypto password salt rounds)

end Standard

section Separation

theorem xor32_right_cancel {a b c : Bytes32} (same : xor32 a c = xor32 b c) : a = b := by
  apply Vector.ext
  intro i inside
  have here : (xor32 a c)[i] = (xor32 b c)[i] := congrArg (·[i]) same
  simp only [xor32, Vector.getElem_zipWith] at here
  exact (UInt8.xor_left_inj _).mp here

theorem zero_xor32 (a : Bytes32) : xor32 (Vector.replicate 32 0) a = a := by
  apply Vector.ext
  intro i inside
  simp only [xor32, Vector.getElem_zipWith, Vector.getElem_replicate, UInt8.zero_xor]

/-- The same value taken in several times. -/
def xorTimes (value : Bytes32) : Nat → Bytes32 → Bytes32
  | 0, acc => acc
  | times + 1, acc => xorTimes value times (xor32 acc value)

theorem xorTimes_cancel {value a b : Bytes32} {times : Nat}
    (same : xorTimes value times a = xorTimes value times b) : a = b := by
  induction times generalizing a b with
  | zero => exact same
  | succ times ih => exact xor32_right_cancel (ih same)

theorem xorTimes_succ (value acc : Bytes32) (times : Nat) :
    xorTimes value (times + 1) acc = xor32 (xorTimes value times acc) value := by
  induction times generalizing acc with
  | zero => rfl
  | succ times ih => exact ih (xor32 acc value)

/-- The same byte thirty-two times. -/
def constant (byte : UInt8) : Bytes32 := Vector.replicate 32 byte

theorem constant_toList (byte : UInt8) : (constant byte).toList = List.replicate 32 byte :=
  Vector.toList_replicate

theorem constant_injective {byte other : UInt8}
    (same : (constant byte).toList = (constant other).toList) : byte = other := by
  rw [constant_toList, constant_toList] at same
  exact (List.replicate_inj.mp same).2.resolve_left (by decide)

/-- One of three different keys is none of two given ones. -/
theorem exists_constant_ne (a b : List UInt8) :
    ∃ byte : UInt8, byte ≠ 0 ∧ byte ≠ 1 ∧ (constant byte).toList ≠ a ∧
      (constant byte).toList ≠ b := by
  by_contra none
  push Not at none
  have taken (byte : UInt8) (present : byte ≠ 0) (other : byte ≠ 1) :
      (constant byte).toList = a ∨ (constant byte).toList = b := by
    by_cases first : (constant byte).toList = a
    · exact .inl first
    · exact .inr (none byte present other first)
  have apart {x y : UInt8} (differ : x ≠ y) (c : List UInt8) :
      ¬((constant x).toList = c ∧ (constant y).toList = c) :=
    fun both => differ (constant_injective (both.1.trans both.2.symm))
  rcases taken 2 (by decide) (by decide) with two | two
  · rcases taken 3 (by decide) (by decide) with three | three
    · exact apart (by decide) a ⟨two, three⟩
    · rcases taken 4 (by decide) (by decide) with four | four
      · exact apart (by decide) a ⟨two, four⟩
      · exact apart (by decide) b ⟨three, four⟩
  · rcases taken 3 (by decide) (by decide) with three | three
    · rcases taken 4 (by decide) (by decide) with four | four
      · exact apart (by decide) a ⟨three, four⟩
      · exact apart (by decide) b ⟨two, four⟩
    · exact apart (by decide) b ⟨two, three⟩

/-- A function that has a value of its own where `hi` begins. -/
def separating (key message : List UInt8) (own other : Bytes32) : Crypto where
  hmacSha256 key' message' := if key' = key ∧ message' = message then own else other
  sha256 _ := constant 0
  base64Encode _ := ""
  base64Decode _ := .ok []

variable {password salt : List UInt8} {own other : Bytes32}

theorem hiRounds_separating (apart : other.toList ≠ salt) (rounds : Nat) (ui result : Bytes32)
    (start : ui.toList ≠ salt) :
    hiRounds (separating salt password own other) password rounds ui result =
      xorTimes other rounds result := by
  induction rounds generalizing ui result with
  | zero => rfl
  | succ rounds ih =>
      have next : (separating salt password own other).hmacSha256 ui.toList password = other :=
        if_neg fun both => start both.1
      rw [hiRounds, next]
      exact ih other _ apart

theorem standardRound_separating (apart : other.toList ≠ password) (round : Nat) :
    standardRound (separating salt password own other) password salt round = other := by
  cases round with
  | zero =>
      apply if_neg
      rintro ⟨same, longer⟩
      have lengths := congrArg List.length longer
      rw [List.length_append, same] at lengths
      exact absurd lengths (Nat.ne_of_gt (Nat.lt_add_of_pos_right (by decide)))
  | succ round =>
      apply if_neg
      rintro ⟨-, same⟩
      rw [standardRound_separating apart round] at same
      exact apart same

theorem standardHi_separating (apart : other.toList ≠ password) (rounds : Nat) :
    standardHi (separating salt password own other) password salt (rounds + 1) =
      xorTimes other rounds other := by
  induction rounds with
  | zero =>
      rw [standardHi, standardRound_separating apart, standardHi, zero_xor32]
      rfl
  | succ rounds ih => rw [standardHi, ih, standardRound_separating apart, xorTimes_succ]

end Separation

/-- **`hi` is the function of the standard for no password, salt and number of rounds.**
There is a HMAC under which they differ. -/
theorem hi_is_not_standard (password : String) (salt : List UInt8) (iterations : Nat)
    (positive : 1 ≤ iterations) :
    ¬ ∀ crypto : Crypto,
      hi crypto password salt iterations =
        standardHi crypto (utf8Bytes password) salt iterations := by
  intro standard
  obtain ⟨rounds, rfl⟩ : ∃ rounds, iterations = rounds + 1 := ⟨iterations - 1, by omega⟩
  obtain ⟨byte, notZero, notOne, notSalt, notPassword⟩ :=
    exists_constant_ne salt (utf8Bytes password)
  obtain ⟨own, ownSalt, differs⟩ : ∃ own : Bytes32, own.toList ≠ salt ∧ own ≠ constant byte := by
    by_cases zero : (constant 0).toList = salt
    · refine ⟨constant 1, fun one => ?_, fun same => ?_⟩
      · exact absurd (constant_injective (zero.trans one.symm)) (by decide)
      · exact notOne (constant_injective (congrArg Vector.toList same)).symm
    · exact ⟨constant 0, zero, fun same =>
        notZero (constant_injective (congrArg Vector.toList same)).symm⟩
  have same := standard (separating salt (utf8Bytes password) own (constant byte))
  have begins : (separating salt (utf8Bytes password) own (constant byte)).hmacSha256 salt
      (utf8Bytes password) = own := if_pos ⟨rfl, rfl⟩
  rw [standardHi_separating notPassword, hi, begins, Nat.add_sub_cancel,
    hiRounds_separating notSalt rounds own own ownSalt] at same
  exact differs (xorTimes_cancel same)

theorem hi_is_not_standard_once :
    ¬ ∀ crypto : Crypto,
      hi crypto "pencil" [7] 1 = standardHi crypto (utf8Bytes "pencil") [7] 1 :=
  hi_is_not_standard "pencil" [7] 1 (Nat.le_refl 1)

/-- A HMAC that depends on the length of its key tells one from the other. -/
theorem hi_exchanges_key_and_message :
    ∃ crypto : Crypto, hi crypto "pencil" [7] 1 ≠ standardHi crypto (utf8Bytes "pencil") [7] 1 := by
  refine ⟨{ separating [] [] (constant 0) (constant 0) with
    hmacSha256 := fun key _ => constant (UInt8.ofNat key.length) }, ?_⟩
  decide +kernel

end MoodengSQL
