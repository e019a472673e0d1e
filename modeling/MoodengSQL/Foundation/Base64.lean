import Mathlib

/-!
# Base64

Bytes as printable characters, three bytes in four, with padding at the end. What is
encoded is decoded back, and its characters are those of the alphabet and the padding.
-/

namespace Foundation.Base64

/-- The character of six bits. -/
def digit (n : Nat) : Char :=
  if n < 26 then Char.ofNat (65 + n)
  else if n < 52 then Char.ofNat (71 + n)
  else if n < 62 then Char.ofNat (n - 4)
  else if n = 62 then '+'
  else '/'

/-- The characters of an encoding: letters, digits, plus and slash, and the padding. -/
def alphabet : List Char :=
  "ABCDEFGHIJKLMNOPQRSTUVWXYZabcdefghijklmnopqrstuvwxyz0123456789+/=".toList

/-- The six bits of a character of the alphabet. -/
def digitValue (c : Char) : Option Nat :=
  if 'A' ≤ c ∧ c ≤ 'Z' then some (c.toNat - 65)
  else if 'a' ≤ c ∧ c ≤ 'z' then some (c.toNat - 71)
  else if '0' ≤ c ∧ c ≤ '9' then some (c.toNat + 4)
  else if c = '+' then some 62
  else if c = '/' then some 63
  else none

/-- The encoding of bytes. -/
def encode : List UInt8 → List Char
  | [] => []
  | [a] => [digit (a.toNat / 4), digit (a.toNat % 4 * 16), '=', '=']
  | [a, b] =>
      [digit (a.toNat / 4), digit (a.toNat % 4 * 16 + b.toNat / 16),
        digit (b.toNat % 16 * 4), '=']
  | a :: b :: c :: rest =>
      digit (a.toNat / 4) :: digit (a.toNat % 4 * 16 + b.toNat / 16) ::
        digit (b.toNat % 16 * 4 + c.toNat / 64) :: digit (c.toNat % 64) :: encode rest

/-- The bytes of an encoding. Padding stands at the end only, and the bits it stands for
are zero. -/
def decode : List Char → Option (List UInt8)
  | [] => some []
  | [first, second, '=', '='] => do
      let first ← digitValue first
      let second ← digitValue second
      if second % 16 = 0 then some [UInt8.ofNat (first * 4 + second / 16)] else none
  | [first, second, third, '='] => do
      let first ← digitValue first
      let second ← digitValue second
      let third ← digitValue third
      if third % 4 = 0 then
        some [UInt8.ofNat (first * 4 + second / 16), UInt8.ofNat (second % 16 * 16 + third / 4)]
      else none
  | first :: second :: third :: fourth :: rest => do
      let first ← digitValue first
      let second ← digitValue second
      let third ← digitValue third
      let fourth ← digitValue fourth
      let bytes ← decode rest
      some (UInt8.ofNat (first * 4 + second / 16) :: UInt8.ofNat (second % 16 * 16 + third / 4) ::
        UInt8.ofNat (third % 4 * 64 + fourth) :: bytes)
  | _ => none

/-- A character of the alphabet has the bits it was made of. -/
theorem digitValue_digit {n : Nat} (small : n < 64) : digitValue (digit n) = some n := by
  have all : ∀ n < 64, digitValue (digit n) = some n := by decide
  exact all n small

theorem digit_mem_alphabet {n : Nat} (small : n < 64) : digit n ∈ alphabet := by
  have all : ∀ n < 64, digit n ∈ alphabet := by decide +kernel
  exact all n small

theorem digit_ne_padding {n : Nat} (small : n < 64) : digit n ≠ '=' := by
  have all : ∀ n < 64, digit n ≠ '=' := by decide
  exact all n small

/-- **Decoding undoes encoding.** -/
theorem decode_encode (bytes : List UInt8) : decode (encode bytes) = some bytes := by
  induction bytes using encode.induct with
  | case1 => rfl
  | case2 a =>
      have small := a.toNat_lt
      have back : UInt8.ofNat (a.toNat / 4 * 4 + a.toNat % 4 * 16 / 16) = a := by
        rw [show a.toNat / 4 * 4 + a.toNat % 4 * 16 / 16 = a.toNat by omega, UInt8.ofNat_toNat]
      rw [encode, decode, digitValue_digit (by omega), digitValue_digit (by omega)]
      change (if a.toNat % 4 * 16 % 16 = 0 then _ else _) = _
      rw [if_pos (by omega), back]
  | case3 a b =>
      have small := a.toNat_lt
      have small' := b.toNat_lt
      have first : UInt8.ofNat (a.toNat / 4 * 4 + (a.toNat % 4 * 16 + b.toNat / 16) / 16) = a := by
        rw [show a.toNat / 4 * 4 + (a.toNat % 4 * 16 + b.toNat / 16) / 16 = a.toNat by omega,
          UInt8.ofNat_toNat]
      have second : UInt8.ofNat ((a.toNat % 4 * 16 + b.toNat / 16) % 16 * 16 +
          b.toNat % 16 * 4 / 4) = b := by
        rw [show (a.toNat % 4 * 16 + b.toNat / 16) % 16 * 16 + b.toNat % 16 * 4 / 4 =
          b.toNat by omega, UInt8.ofNat_toNat]
      rw [encode, decode, digitValue_digit (by omega), digitValue_digit (by omega),
        digitValue_digit (by omega)]
      · change (if b.toNat % 16 * 4 % 4 = 0 then _ else _) = _
        rw [if_pos (by omega), first, second]
      · exact digit_ne_padding (by omega)
  | case4 a b c rest ih =>
      have small := a.toNat_lt
      have small' := b.toNat_lt
      have small'' := c.toNat_lt
      have first : UInt8.ofNat (a.toNat / 4 * 4 + (a.toNat % 4 * 16 + b.toNat / 16) / 16) = a := by
        rw [show a.toNat / 4 * 4 + (a.toNat % 4 * 16 + b.toNat / 16) / 16 = a.toNat by omega,
          UInt8.ofNat_toNat]
      have second : UInt8.ofNat ((a.toNat % 4 * 16 + b.toNat / 16) % 16 * 16 +
          (b.toNat % 16 * 4 + c.toNat / 64) / 4) = b := by
        rw [show (a.toNat % 4 * 16 + b.toNat / 16) % 16 * 16 +
          (b.toNat % 16 * 4 + c.toNat / 64) / 4 = b.toNat by omega, UInt8.ofNat_toNat]
      have third : UInt8.ofNat ((b.toNat % 16 * 4 + c.toNat / 64) % 4 * 64 + c.toNat % 64) = c := by
        rw [show (b.toNat % 16 * 4 + c.toNat / 64) % 4 * 64 + c.toNat % 64 = c.toNat by omega,
          UInt8.ofNat_toNat]
      rw [encode, decode, digitValue_digit (by omega), digitValue_digit (by omega),
        digitValue_digit (by omega), digitValue_digit (by omega), ih]
      · change some _ = _
        rw [first, second, third]
      · intro _ padding
        exact absurd padding (digit_ne_padding (by omega))
      · intro padding
        exact absurd padding (digit_ne_padding (by omega))

/-- An encoding has no characters but those of the alphabet and the padding. -/
theorem mem_encode {bytes : List UInt8} {c : Char} (member : c ∈ encode bytes) :
    c ∈ alphabet := by
  induction bytes using encode.induct with
  | case1 => cases member
  | case2 a =>
      have small := a.toNat_lt
      simp only [encode, List.mem_cons, List.not_mem_nil, or_false] at member
      rcases member with rfl | rfl | rfl | rfl
      · exact digit_mem_alphabet (by omega)
      · exact digit_mem_alphabet (by omega)
      · decide
      · decide
  | case3 a b =>
      have small := a.toNat_lt
      have small' := b.toNat_lt
      simp only [encode, List.mem_cons, List.not_mem_nil, or_false] at member
      rcases member with rfl | rfl | rfl | rfl
      · exact digit_mem_alphabet (by omega)
      · exact digit_mem_alphabet (by omega)
      · exact digit_mem_alphabet (by omega)
      · decide
  | case4 a b c' rest ih =>
      have small := a.toNat_lt
      have small' := b.toNat_lt
      have small'' := c'.toNat_lt
      simp only [encode, List.mem_cons] at member
      rcases member with rfl | rfl | rfl | rfl | later
      · exact digit_mem_alphabet (by omega)
      · exact digit_mem_alphabet (by omega)
      · exact digit_mem_alphabet (by omega)
      · exact digit_mem_alphabet (by omega)
      · exact ih later

end Foundation.Base64
