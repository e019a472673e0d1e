import Mathlib

/-!
# Slices of byte strings

Reading and overwriting slices of a list, and little-endian numbers. A write
inside a larger slice writes into that slice; a write beside it leaves it alone.
-/

namespace Foundation

variable {B : Type}

/-- The `count` elements from `offset` on. -/
def readAt (bytes : List B) (offset count : Nat) : List B := (bytes.drop offset).take count

/-- Overwrite what stands at `offset`. -/
def writeAt (bytes : List B) (offset : Nat) (data : List B) : List B :=
  bytes.take offset ++ data ++ bytes.drop (offset + data.length)

theorem getElem?_readAt (bytes : List B) (offset count i : Nat) :
    (readAt bytes offset count)[i]? = if i < count then bytes[offset + i]? else none := by
  rw [readAt, List.getElem?_take, List.getElem?_drop]

theorem getElem?_writeAt {bytes data : List B} {offset : Nat}
    (inside : offset + data.length ≤ bytes.length) (i : Nat) :
    (writeAt bytes offset data)[i]? =
      if offset ≤ i ∧ i < offset + data.length then data[i - offset]? else bytes[i]? := by
  have taken : (bytes.take offset).length = offset := by
    rw [List.length_take]
    omega
  rw [writeAt, List.append_assoc, List.getElem?_append, taken, List.getElem?_append]
  by_cases before : i < offset
  · rw [if_pos before, if_neg (by omega), List.getElem?_take, if_pos before]
  · by_cases within : i - offset < data.length
    · rw [if_neg before, if_pos within, if_pos (by omega)]
    · rw [if_neg before, if_neg within, if_neg (by omega), List.getElem?_drop]
      congr 1
      omega

theorem length_readAt {bytes : List B} {offset count : Nat}
    (inside : offset + count ≤ bytes.length) : (readAt bytes offset count).length = count := by
  rw [readAt, List.length_take, List.length_drop]
  omega

theorem length_writeAt {bytes data : List B} {offset : Nat}
    (inside : offset + data.length ≤ bytes.length) :
    (writeAt bytes offset data).length = bytes.length := by
  rw [writeAt, List.length_append, List.length_append, List.length_take, List.length_drop]
  omega

/-- A slice of a slice. -/
theorem readAt_readAt (bytes : List B) {offset count inner size : Nat}
    (inside : inner + size ≤ count) :
    readAt (readAt bytes offset count) inner size = readAt bytes (offset + inner) size := by
  apply List.ext_getElem?
  intro i
  rw [getElem?_readAt, getElem?_readAt, getElem?_readAt]
  by_cases small : i < size
  · rw [if_pos small, if_pos (by omega), if_pos small, Nat.add_assoc]
  · rw [if_neg small, if_neg small]

/-- A write inside a slice writes into the slice. -/
theorem readAt_writeAt_within {bytes data : List B} {offset count inner : Nat}
    (fits : inner + data.length ≤ count) (inside : offset + count ≤ bytes.length) :
    readAt (writeAt bytes (offset + inner) data) offset count =
      writeAt (readAt bytes offset count) inner data := by
  have room : inner + data.length ≤ (readAt bytes offset count).length := by
    rw [length_readAt inside]
    exact fits
  apply List.ext_getElem?
  intro i
  rw [getElem?_readAt, getElem?_writeAt (by omega), getElem?_writeAt room, getElem?_readAt]
  by_cases small : i < count
  · rw [if_pos small, if_pos small]
    by_cases hit : inner ≤ i ∧ i < inner + data.length
    · rw [if_pos (by omega), if_pos hit]
      congr 1
      omega
    · rw [if_neg (by omega), if_neg hit]
  · rw [if_neg small, if_neg small, if_neg (by omega)]

/-- A write beside a slice leaves it alone. -/
theorem readAt_writeAt_beside {bytes data : List B} {offset count target : Nat}
    (inside : target + data.length ≤ bytes.length)
    (beside : offset + count ≤ target ∨ target + data.length ≤ offset) :
    readAt (writeAt bytes target data) offset count = readAt bytes offset count := by
  apply List.ext_getElem?
  intro i
  rw [getElem?_readAt, getElem?_readAt]
  by_cases small : i < count
  · rw [if_pos small, if_pos small, getElem?_writeAt inside, if_neg (by omega)]
  · rw [if_neg small, if_neg small]

/-- What is appended leaves the slices before it alone. -/
theorem readAt_append {bytes : List B} {offset count : Nat} (more : List B)
    (inside : offset + count ≤ bytes.length) :
    readAt (bytes ++ more) offset count = readAt bytes offset count := by
  apply List.ext_getElem?
  intro i
  rw [getElem?_readAt, getElem?_readAt]
  by_cases small : i < count
  · rw [if_pos small, if_pos small, List.getElem?_append_left (by omega)]
  · rw [if_neg small, if_neg small]

/-- A slice of what is filled up. -/
theorem readAt_append_replicate {bytes : List B} {offset count size : Nat} (fill : B)
    (behind : bytes.length ≤ offset) (inside : offset + count ≤ bytes.length + size) :
    readAt (bytes ++ List.replicate size fill) offset count = List.replicate count fill := by
  rw [readAt, List.drop_append, List.drop_eq_nil_of_le behind, List.nil_append,
    List.drop_replicate, List.take_replicate]
  congr 1
  omega

/-- A slice that begins a list. -/
theorem readAt_zero_append (first rest : List B) :
    readAt (first ++ rest) 0 first.length = first := by
  rw [readAt, List.drop_zero, List.take_left]

/-- A slice behind the beginning of a list. -/
theorem readAt_append_middle (first middle rest : List B) :
    readAt (first ++ middle ++ rest) first.length middle.length = middle := by
  rw [readAt, List.append_assoc, List.drop_left, List.take_left]

/-- Two writes, one behind the other, from the beginning on. -/
theorem writeAt_behind (bytes first second : List B) :
    writeAt (writeAt bytes 0 first) first.length second =
      first ++ second ++ bytes.drop (first.length + second.length) := by
  have begun : writeAt bytes 0 first = first ++ bytes.drop first.length := by
    rw [writeAt, List.take_zero, List.nil_append, Nat.zero_add]
  rw [begun, writeAt, List.take_left, ← List.drop_drop, List.drop_left, List.drop_drop]

/-- The little-endian bytes of a number, `width` of them. -/
def toLeBytes : Nat → Nat → List UInt8
  | 0, _ => []
  | width + 1, n => UInt8.ofNat (n % 256) :: toLeBytes width (n / 256)

/-- The number little-endian bytes stand for. -/
def fromLeBytes : List UInt8 → Nat
  | [] => 0
  | byte :: rest => byte.toNat + 256 * fromLeBytes rest

@[simp] theorem length_toLeBytes (width n : Nat) : (toLeBytes width n).length = width := by
  induction width generalizing n with
  | zero => rfl
  | succ width ih => rw [toLeBytes, List.length_cons, ih]

/-- Reading little-endian bytes gives the number, if the width holds it. -/
theorem fromLeBytes_toLeBytes {width n : Nat} (small : n < 256 ^ width) :
    fromLeBytes (toLeBytes width n) = n := by
  induction width generalizing n with
  | zero =>
      rw [pow_zero] at small
      simp only [toLeBytes, fromLeBytes]
      omega
  | succ width ih =>
      rw [pow_succ] at small
      have higher : n / 256 < 256 ^ width := Nat.div_lt_of_lt_mul (by omega)
      rw [toLeBytes, fromLeBytes, ih higher, UInt8.toNat_ofNat']
      omega

end Foundation
