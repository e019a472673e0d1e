import Mathlib

/-!
# Reflected cyclic redundancy checks

A register that shifts its low bits out and takes in bytes at its low end, for
any width and any polynomial whose top coefficient is set. No state is reached
from two others by the same bytes, and no state is reached from another by two
different runs of bytes that fit the register. A change within so many bytes
therefore always shows in the end.
-/

namespace Foundation.Crc

variable {w : Nat} (poly : BitVec w)

/-- The low bit of the register is shifted out. -/
def shiftOut (c : BitVec w) : BitVec w :=
  if c.getLsbD 0 then poly ^^^ (c >>> 1) else c >>> 1

/-- A byte at the low end of the register. -/
def lowByte (byte : UInt8) : BitVec w := byte.toBitVec.setWidth w

/-- A byte is taken in. -/
def takeIn (c : BitVec w) (byte : UInt8) : BitVec w :=
  (shiftOut poly)^[8] (c ^^^ lowByte byte)

/-- Bytes are taken in, one after the other. -/
def feed (c : BitVec w) (bytes : List UInt8) : BitVec w := bytes.foldl (takeIn poly) c

variable {poly}

section Shifting

/-- A register whose top bit comes from the polynomial alone tells the bit that
was shifted out. -/
theorem getLsbD_shiftOut_top (top : poly.getLsbD (w - 1) = true) (c : BitVec w) :
    (shiftOut poly c).getLsbD (w - 1) = c.getLsbD 0 := by
  have wide : 0 < w := by
    by_contra empty
    rw [BitVec.getLsbD_of_ge poly (w - 1) (by omega)] at top
    cases top
  have shifted : (c >>> 1).getLsbD (w - 1) = false := by
    rw [BitVec.getLsbD_ushiftRight]
    exact BitVec.getLsbD_of_ge c _ (by omega)
  unfold shiftOut
  split
  · rename_i low
    rw [BitVec.getLsbD_xor, top, shifted, low]
    rfl
  · rename_i low
    rw [shifted, Bool.eq_false_iff.mpr low]

theorem shiftOut_injective (top : poly.getLsbD (w - 1) = true) :
    Function.Injective (shiftOut poly) := by
  intro c d same
  have low : c.getLsbD 0 = d.getLsbD 0 := by
    rw [← getLsbD_shiftOut_top top, ← getLsbD_shiftOut_top top, same]
  have shifted : c >>> 1 = d >>> 1 := by
    unfold shiftOut at same
    rw [low] at same
    split at same
    · exact (BitVec.xor_right_inj poly).mp same
    · exact same
  apply BitVec.eq_of_getLsbD_eq
  intro i _
  cases i with
  | zero => exact low
  | succ i =>
      have bit := congrArg (·.getLsbD i) shifted
      simp only [BitVec.getLsbD_ushiftRight] at bit
      rwa [Nat.add_comm] at bit

/-- High bits are shifted down beside the low ones. -/
theorem iterate_shiftOut_xor (n : Nat) (c high : BitVec w)
    (clear : ∀ i < n, high.getLsbD i = false) :
    (shiftOut poly)^[n] (c ^^^ high) = (shiftOut poly)^[n] c ^^^ (high >>> n) := by
  induction n generalizing c high with
  | zero => rw [Function.iterate_zero, id, id, BitVec.ushiftRight_zero]
  | succ n ih =>
      have first : shiftOut poly (c ^^^ high) = shiftOut poly c ^^^ (high >>> 1) := by
        unfold shiftOut
        rw [BitVec.getLsbD_xor, clear 0 (Nat.succ_pos n), Bool.xor_false,
          BitVec.ushiftRight_xor_distrib]
        split
        · rw [BitVec.xor_assoc]
        · rfl
      have later : ∀ i < n, (high >>> 1).getLsbD i = false := by
        intro i low
        rw [BitVec.getLsbD_ushiftRight]
        exact clear _ (by omega)
      rw [Function.iterate_succ_apply, Function.iterate_succ_apply, first, ih _ _ later,
        ← BitVec.shiftRight_add, Nat.add_comm 1 n]

/-- **A table serves for eight shifts**: the entry for the low byte, beside the
bytes above it. -/
theorem iterate_shiftOut_table (c : BitVec w) :
    (shiftOut poly)^[8] c = (shiftOut poly)^[8] (c &&& 0xFF#w) ^^^ (c >>> 8) := by
  have split : c = (c &&& 0xFF#w) ^^^ (c >>> 8 <<< 8) := by
    apply BitVec.eq_of_getLsbD_eq
    intro i inside
    have mask : (0xFF#w).getLsbD i = decide (i < 8) := by
      rw [BitVec.getLsbD_ofNat, ← Nat.testBit_two_pow_sub_one 8 i, decide_eq_true inside]
      rfl
    rw [BitVec.getLsbD_xor, BitVec.getLsbD_and, mask, BitVec.getLsbD_shiftLeft,
      BitVec.getLsbD_ushiftRight]
    by_cases low : i < 8
    · simp [low]
    · simp [low, inside, show 8 + (i - 8) = i by omega]
  have clear : ∀ i < 8, (c >>> 8 <<< 8).getLsbD i = false := by
    intro i low
    rw [BitVec.getLsbD_shiftLeft]
    simp [low]
  have back : c >>> 8 <<< 8 >>> 8 = c >>> 8 := by
    apply BitVec.eq_of_getLsbD_eq
    intro i _
    rw [BitVec.getLsbD_ushiftRight, BitVec.getLsbD_shiftLeft, Nat.add_sub_cancel_left,
      BitVec.getLsbD_ushiftRight]
    by_cases inside : 8 + i < w
    · simp [inside]
    · simp [inside, BitVec.getLsbD_of_ge c (8 + i) (Nat.not_lt.mp inside)]
  conv => lhs; rw [split]
  rw [iterate_shiftOut_xor 8 _ _ clear, back]

end Shifting

section Feeding

/-- Bytes side by side, the first one lowest. -/
def word : List UInt8 → BitVec w
  | [] => 0#w
  | byte :: rest => lowByte byte ^^^ (word rest <<< 8)

theorem getLsbD_lowByte (byte : UInt8) (i : Nat) :
    (lowByte byte : BitVec w).getLsbD i = (decide (i < w) && byte.toBitVec.getLsbD i) :=
  BitVec.getLsbD_setWidth w byte.toBitVec i

theorem getLsbD_word_high {bytes : List UInt8} {i : Nat} (high : 8 * bytes.length ≤ i) :
    (word bytes : BitVec w).getLsbD i = false := by
  induction bytes generalizing i with
  | nil => exact BitVec.getLsbD_zero
  | cons byte rest ih =>
      rw [List.length_cons] at high
      rw [word, BitVec.getLsbD_xor, getLsbD_lowByte, BitVec.getLsbD_shiftLeft,
        BitVec.getLsbD_of_ge byte.toBitVec i (by omega), ih (by omega)]
      simp

/-- Bytes that leave the top byte free lose nothing when they move up. -/
theorem word_shift_back {bytes : List UInt8} (fits : 8 * (bytes.length + 1) ≤ w) :
    (word bytes : BitVec w) <<< 8 >>> 8 = word bytes := by
  apply BitVec.eq_of_getLsbD_eq
  intro i _
  rw [BitVec.getLsbD_ushiftRight, BitVec.getLsbD_shiftLeft, Nat.add_sub_cancel_left]
  by_cases inside : 8 + i < w
  · simp [inside]
  · rw [getLsbD_word_high (by omega)]
    simp

/-- **Bytes that fit the register** are taken in as one word. -/
theorem feed_eq_iterate {bytes : List UInt8} (fits : 8 * bytes.length ≤ w) (c : BitVec w) :
    feed poly c bytes = (shiftOut poly)^[8 * bytes.length] (c ^^^ word bytes) := by
  induction bytes generalizing c with
  | nil =>
      rw [List.length_nil, Nat.mul_zero, Function.iterate_zero, id, word, BitVec.xor_zero]
      rfl
  | cons byte rest ih =>
      rw [List.length_cons] at fits
      have clear : ∀ i < 8, ((word rest : BitVec w) <<< 8).getLsbD i = false := by
        intro i low
        rw [BitVec.getLsbD_shiftLeft]
        simp [low]
      have joined : (shiftOut poly)^[8] (c ^^^ lowByte byte ^^^ (word rest <<< 8)) =
          (shiftOut poly)^[8] (c ^^^ lowByte byte) ^^^ word rest := by
        rw [iterate_shiftOut_xor 8 _ _ clear, word_shift_back fits]
      have first : feed poly c (byte :: rest) =
          feed poly ((shiftOut poly)^[8] (c ^^^ lowByte byte)) rest := rfl
      rw [first, ih (by omega), ← joined, ← Function.iterate_add_apply, word, BitVec.xor_assoc,
        List.length_cons, Nat.mul_succ]

theorem word_injective {first second : List UInt8} (fits : 8 * first.length ≤ w)
    (lengths : first.length = second.length)
    (same : (word first : BitVec w) = word second) : first = second := by
  induction first generalizing second with
  | nil => exact (List.length_eq_zero_iff.mp lengths.symm).symm
  | cons byte rest ih =>
      cases second with
      | nil => cases lengths
      | cons byte' rest' =>
          rw [List.length_cons] at fits
          have lengths' : rest.length = rest'.length := Nat.succ.inj lengths
          have low : byte = byte' := by
            apply UInt8.toBitVec_inj.mp
            apply BitVec.eq_of_getLsbD_eq
            intro i inside
            have bit := congrArg (·.getLsbD i) same
            simp only [word, BitVec.getLsbD_xor, getLsbD_lowByte, BitVec.getLsbD_shiftLeft] at bit
            simpa [inside, show i < w by omega] using bit
          subst low
          rw [word, word, BitVec.xor_right_inj] at same
          have back := congrArg (fun shifted : BitVec w => shifted >>> 8) same
          simp only [word_shift_back fits, word_shift_back (lengths' ▸ fits)] at back
          rw [ih (by omega) lengths' back]

/-- The same bytes take different registers to different ones. -/
theorem feed_injective (top : poly.getLsbD (w - 1) = true) (bytes : List UInt8) :
    Function.Injective fun c => feed poly c bytes := by
  induction bytes with
  | nil => exact fun c d same => same
  | cons byte rest ih =>
      intro c d same
      have stepped := (shiftOut_injective top).iterate 8 (ih same)
      exact (BitVec.xor_left_inj _).mp stepped

/-- **A burst that fits the register always shows.** -/
theorem feed_ne_of_burst (top : poly.getLsbD (w - 1) = true) (c : BitVec w)
    {before burst burst' after : List UInt8} (fits : 8 * burst.length ≤ w)
    (lengths : burst.length = burst'.length) (differ : burst ≠ burst') :
    feed poly c (before ++ burst ++ after) ≠ feed poly c (before ++ burst' ++ after) := by
  intro same
  have split (middle : List UInt8) : feed poly c (before ++ middle ++ after) =
      feed poly (feed poly (feed poly c before) middle) after := by
    simp only [feed, List.foldl_append]
  rw [split, split] at same
  have inner : feed poly (feed poly c before) burst = feed poly (feed poly c before) burst' :=
    feed_injective top after same
  have fits' : 8 * burst'.length ≤ w := lengths ▸ fits
  generalize feed poly c before = middle at inner
  rw [feed_eq_iterate fits, feed_eq_iterate fits', ← lengths] at inner
  have words := (BitVec.xor_right_inj _).mp ((shiftOut_injective top).iterate _ inner)
  exact differ (word_injective fits lengths words)

end Feeding

end Foundation.Crc
