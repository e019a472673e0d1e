import MoodengSQL.Log.Bytes
import MoodengSQL.Server.Text

/-!
# Texts in bytes

Decoding the UTF-8 bytes of a text gives the text, and a text without a zero
character is read back from the bytes that end it with a zero.
-/

namespace MoodengSQL

section Characters

/-- A byte in a range continues a character. -/
theorem utf8Continue_cons {low high : UInt8} {ranges : List (UInt8 × UInt8)} {code n : Nat}
    {rest : List UInt8} (byte : n < 256) (above : low.toNat ≤ n) (below : n ≤ high.toNat) :
    utf8Continue ((low, high) :: ranges) code (UInt8.ofNat n :: rest) =
      utf8Continue ranges (code * 64 + (n - 0x80)) rest := by
  have value : (UInt8.ofNat n).toNat = n := UInt8.toNat_ofNat_of_lt' byte
  rw [utf8Continue, if_pos, value]
  rw [UInt8.le_iff_toNat_le, UInt8.le_iff_toNat_le, value]
  exact ⟨above, below⟩

/-- The ranges by the number of the first byte. -/
theorem utf8Tail_ofNat {n : Nat} (byte : n < 256) : utf8Tail (UInt8.ofNat n) =
    if n < 0x80 then some []
    else if 0xC2 ≤ n ∧ n ≤ 0xDF then some [(0x80, 0xBF)]
    else if n = 0xE0 then some [(0xA0, 0xBF), (0x80, 0xBF)]
    else if n = 0xED then some [(0x80, 0x9F), (0x80, 0xBF)]
    else if 0xE1 ≤ n ∧ n ≤ 0xEF then some [(0x80, 0xBF), (0x80, 0xBF)]
    else if n = 0xF0 then some [(0x90, 0xBF), (0x80, 0xBF), (0x80, 0xBF)]
    else if 0xF1 ≤ n ∧ n ≤ 0xF3 then some [(0x80, 0xBF), (0x80, 0xBF), (0x80, 0xBF)]
    else if n = 0xF4 then some [(0x80, 0x8F), (0x80, 0xBF), (0x80, 0xBF)]
    else none := by
  have value : (UInt8.ofNat n).toNat = n := UInt8.toNat_ofNat_of_lt' byte
  unfold utf8Tail
  simp only [UInt8.lt_iff_toNat_lt, UInt8.le_iff_toNat_le, ← UInt8.toNat_inj, value]
  rfl

theorem utf8Lead_ofNat {n : Nat} (byte : n < 256) (following : Nat) :
    utf8Lead (UInt8.ofNat n) (following + 1) = n % 2 ^ (5 - following) := by
  rw [utf8Lead, UInt8.toNat_ofNat_of_lt' byte]
  · rw [show 6 - (following + 1) = 5 - following by omega]
  · exact Nat.succ_ne_zero following

/-- A first byte with the bytes that have to follow it. -/
theorem decodeUtf8_cons {first : UInt8} {ranges : List (UInt8 × UInt8)} {code fuel : Nat}
    {bytes rest : List UInt8} (tail : utf8Tail first = some ranges)
    (continued : utf8Continue ranges (utf8Lead first ranges.length) bytes = (some code, rest)) :
    decodeUtf8 (fuel + 1) (first :: bytes) = some (Char.ofNat code) :: decodeUtf8 fuel rest := by
  rw [decodeUtf8, tail]
  dsimp only
  rw [continued]
  rfl

/-- Three bytes: what may follow the first one depends on it. -/
theorem utf8Tail_three {v : Nat} (large : 0x800 ≤ v) (small : v < 0x10000)
    (valid : v < 0xD800 ∨ 0xDFFF < v) : ∃ low high : UInt8,
    utf8Tail (UInt8.ofNat (v / 4096 % 16 + 0xE0)) = some [(low, high), (0x80, 0xBF)] ∧
      low.toNat ≤ v / 64 % 64 + 0x80 ∧ v / 64 % 64 + 0x80 ≤ high.toNat := by
  rw [utf8Tail_ofNat (by omega), if_neg (by omega), if_neg (by omega)]
  by_cases first : v / 4096 % 16 + 0xE0 = 0xE0
  · refine ⟨0xA0, 0xBF, if_pos first, ?_, ?_⟩
    · change 0xA0 ≤ _
      omega
    · change _ ≤ 0xBF
      omega
  · rw [if_neg first]
    by_cases surrogates : v / 4096 % 16 + 0xE0 = 0xED
    · refine ⟨0x80, 0x9F, if_pos surrogates, ?_, ?_⟩
      · change 0x80 ≤ _
        omega
      · change _ ≤ 0x9F
        omega
    · rw [if_neg surrogates, if_pos (by omega)]
      refine ⟨0x80, 0xBF, rfl, ?_, ?_⟩
      · change 0x80 ≤ _
        omega
      · change _ ≤ 0xBF
        omega

/-- Four bytes. -/
theorem utf8Tail_four {v : Nat} (large : 0x10000 ≤ v) (small : v < 0x110000) :
    ∃ low high : UInt8,
      utf8Tail (UInt8.ofNat (v / 262144 % 8 + 0xF0)) =
        some [(low, high), (0x80, 0xBF), (0x80, 0xBF)] ∧
      low.toNat ≤ v / 4096 % 64 + 0x80 ∧ v / 4096 % 64 + 0x80 ≤ high.toNat := by
  rw [utf8Tail_ofNat (by omega), if_neg (by omega), if_neg (by omega), if_neg (by omega),
    if_neg (by omega), if_neg (by omega)]
  by_cases first : v / 262144 % 8 + 0xF0 = 0xF0
  · refine ⟨0x90, 0xBF, if_pos first, ?_, ?_⟩
    · change 0x90 ≤ _
      omega
    · change _ ≤ 0xBF
      omega
  · rw [if_neg first]
    by_cases last : v / 262144 % 8 + 0xF0 = 0xF4
    · rw [if_neg (by omega)]
      refine ⟨0x80, 0x8F, if_pos last, ?_, ?_⟩
      · change 0x80 ≤ _
        omega
      · change _ ≤ 0x8F
        omega
    · rw [if_pos (by omega)]
      refine ⟨0x80, 0xBF, rfl, ?_, ?_⟩
      · change 0x80 ≤ _
        omega
      · change _ ≤ 0xBF
        omega

theorem utf8Continue_nil (code : Nat) (rest : List UInt8) :
    utf8Continue [] code rest = (some code, rest) := rfl

/-- The last byte of a character. -/
theorem utf8Continue_last (v code : Nat) (rest : List UInt8) :
    utf8Continue [(0x80, 0xBF)] code (UInt8.ofNat (v % 64 + 0x80) :: rest) =
      (some (code * 64 + v % 64), rest) := by
  have above : (0x80 : UInt8).toNat ≤ v % 64 + 0x80 := by
    change 0x80 ≤ _
    omega
  have below : v % 64 + 0x80 ≤ (0xBF : UInt8).toNat := by
    change _ ≤ 0xBF
    omega
  rw [utf8Continue_cons (by omega) above below, utf8Continue_nil, Nat.add_sub_cancel]

/-- The last two bytes. -/
theorem utf8Continue_two (v code : Nat) (rest : List UInt8) :
    utf8Continue [(0x80, 0xBF), (0x80, 0xBF)] code
        (UInt8.ofNat (v / 64 % 64 + 0x80) :: UInt8.ofNat (v % 64 + 0x80) :: rest) =
      (some ((code * 64 + v / 64 % 64) * 64 + v % 64), rest) := by
  have above : (0x80 : UInt8).toNat ≤ v / 64 % 64 + 0x80 := by
    change 0x80 ≤ _
    omega
  have below : v / 64 % 64 + 0x80 ≤ (0xBF : UInt8).toNat := by
    change _ ≤ 0xBF
    omega
  rw [utf8Continue_cons (by omega) above below, utf8Continue_last, Nat.add_sub_cancel]

/-- **The bytes of a character are decoded to it.** -/
theorem decodeUtf8_char (c : Char) (fuel : Nat) (rest : List UInt8) :
    decodeUtf8 (fuel + 1) (String.utf8EncodeChar c ++ rest) = some c :: decodeUtf8 fuel rest := by
  have valid : c.toNat < 0xD800 ∨ 0xDFFF < c.toNat ∧ c.toNat < 0x110000 := c.valid
  have back : Char.ofNat c.toNat = c := Char.ofNat_toNat c
  have number : c.val.toNat = c.toNat := rfl
  unfold String.utf8EncodeChar
  rw [number]
  generalize c.toNat = v at valid back
  dsimp only
  by_cases one : v ≤ 0x7f
  · have tail : utf8Tail (UInt8.ofNat v) = some [] := by
      rw [utf8Tail_ofNat (by omega), if_pos (by omega)]
    rw [if_pos one]
    refine (decodeUtf8_cons tail (utf8Continue_nil _ _)).trans ?_
    rw [List.length_nil, utf8Lead, UInt8.toNat_ofNat_of_lt' (show v < 256 by omega), back]
    rfl
  · rw [if_neg one]
    by_cases two : v ≤ 0x7ff
    · have tail : utf8Tail (UInt8.ofNat (v / 64 % 32 + 0xC0)) = some [(0x80, 0xBF)] := by
        rw [utf8Tail_ofNat (by omega), if_neg (by omega), if_pos (by omega)]
      rw [if_pos two]
      refine (decodeUtf8_cons tail (utf8Continue_last v _ rest)).trans ?_
      rw [List.length_singleton, utf8Lead_ofNat (by omega)]
      rw [show (v / 64 % 32 + 0xC0) % 2 ^ (5 - 0) * 64 + v % 64 = v by omega, back]
    · rw [if_neg two]
      by_cases three : v ≤ 0xffff
      · obtain ⟨low, high, tail, above, below⟩ :=
          utf8Tail_three (show 0x800 ≤ v by omega) (by omega) (by omega)
        rw [if_pos three]
        refine (decodeUtf8_cons tail
          ((utf8Continue_cons (by omega) above below).trans (utf8Continue_last v _ rest))).trans ?_
        rw [List.length_cons, List.length_singleton, utf8Lead_ofNat (by omega),
          Nat.add_sub_cancel]
        rw [show ((v / 4096 % 16 + 0xE0) % 2 ^ (5 - 1) * 64 + v / 64 % 64) * 64 + v % 64 = v by omega,
          back]
      · obtain ⟨low, high, tail, above, below⟩ :=
          utf8Tail_four (show 0x10000 ≤ v by omega) (by omega)
        rw [if_neg three]
        refine (decodeUtf8_cons tail
          ((utf8Continue_cons (by omega) above below).trans (utf8Continue_two v _ rest))).trans ?_
        rw [List.length_cons, List.length_cons, List.length_singleton, utf8Lead_ofNat (by omega),
          Nat.add_sub_cancel]
        rw [show (((v / 262144 % 8 + 0xF0) % 2 ^ (5 - 2) * 64 + v / 4096 % 64) * 64 +
          v / 64 % 64) * 64 + v % 64 = v by omega, back]

end Characters

section Texts

/-- The bytes of characters are decoded to the characters. -/
theorem decodeUtf8_flatMap (chars : List Char) (fuel : Nat) (enough : chars.length ≤ fuel) :
    decodeUtf8 fuel (chars.flatMap String.utf8EncodeChar) = chars.map some := by
  induction chars generalizing fuel with
  | nil => cases fuel <;> rfl
  | cons char rest ih =>
      cases fuel with
      | zero => simp at enough
      | succ fuel =>
          rw [List.flatMap_cons, decodeUtf8_char, ih fuel (Nat.le_of_succ_le_succ enough)]
          rfl

/-- A character takes at least one byte. -/
theorem length_le_utf8Bytes (text : String) :
    text.toList.length ≤ (utf8Bytes text).length := by
  unfold utf8Bytes
  induction text.toList with
  | nil => exact Nat.le_refl _
  | cons char rest ih =>
      have positive : 0 < char.utf8Size := Char.utf8Size_pos char
      rw [List.flatMap_cons, List.length_append, List.length_cons, String.length_utf8EncodeChar]
      omega

/-- **The bytes of a text are read back as the text.** -/
theorem fromUtf8Lossy_utf8Bytes (text : String) : fromUtf8Lossy (utf8Bytes text) = text := by
  have decoded : decodeUtf8 (utf8Bytes text).length (utf8Bytes text) = text.toList.map some :=
    decodeUtf8_flatMap _ _ (length_le_utf8Bytes text)
  unfold fromUtf8Lossy
  rw [decoded]
  simp

theorem ofNat_ne_zero {n : Nat} (positive : 0 < n) (byte : n < 256) : 0 ≠ UInt8.ofNat n := by
  intro same
  have value : (0 : UInt8).toNat = n := by
    rw [same, UInt8.toNat_ofNat_of_lt' byte]
  exact absurd value (Nat.ne_of_lt positive)

/-- Only the zero character has a zero byte. -/
theorem zero_not_mem_utf8EncodeChar {char : Char} (present : char ≠ '\x00') :
    0 ∉ String.utf8EncodeChar char := by
  have positive : 0 < char.toNat := by
    apply Nat.pos_of_ne_zero
    intro zero
    exact present (Char.toNat_inj.mp zero)
  have number : char.val.toNat = char.toNat := rfl
  unfold String.utf8EncodeChar
  rw [number]
  generalize char.toNat = v at positive
  dsimp only
  split
  · simpa using ofNat_ne_zero positive (by omega)
  · split
    · simp only [List.mem_cons, List.not_mem_nil, or_false, not_or]
      exact ⟨ofNat_ne_zero (by omega) (by omega), ofNat_ne_zero (by omega) (by omega)⟩
    · split
      · simp only [List.mem_cons, List.not_mem_nil, or_false, not_or]
        exact ⟨ofNat_ne_zero (by omega) (by omega), ofNat_ne_zero (by omega) (by omega),
          ofNat_ne_zero (by omega) (by omega)⟩
      · simp only [List.mem_cons, List.not_mem_nil, or_false, not_or]
        exact ⟨ofNat_ne_zero (by omega) (by omega), ofNat_ne_zero (by omega) (by omega),
          ofNat_ne_zero (by omega) (by omega), ofNat_ne_zero (by omega) (by omega)⟩

theorem zero_not_mem_utf8Bytes {text : String} (zeroFree : '\x00' ∉ text.toList) :
    0 ∉ utf8Bytes text := by
  intro mem
  obtain ⟨char, inText, inChar⟩ := List.mem_flatMap.mp mem
  exact zero_not_mem_utf8EncodeChar (fun zero => zeroFree (zero ▸ inText)) inChar

/-- **A text that ends in a zero byte is read up to it.** -/
theorem readCstringBuf_utf8Bytes {text : String} (zeroFree : '\x00' ∉ text.toList)
    (rest : List UInt8) : readCstringBuf (utf8Bytes text ++ 0 :: rest) = (text, rest) := by
  have nonzero : ∀ byte ∈ utf8Bytes text, decide (byte ≠ 0) = true := by
    intro byte mem
    apply decide_eq_true
    intro zero
    exact zero_not_mem_utf8Bytes zeroFree (zero ▸ mem)
  unfold readCstringBuf
  rw [List.dropWhile_append_of_pos nonzero, List.takeWhile_append_of_pos nonzero]
  simp [fromUtf8Lossy_utf8Bytes]

end Texts

end MoodengSQL
